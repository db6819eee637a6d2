import ToolchainChoice.Proofs.Version.Precedence
import ToolchainChoice.Proofs.Version.Texts

/-!
# The order of versions as a preorder of texts

Texts that are versions are compared by a total preorder. It is not an order: a version can be
written in many ways, and zeros at the end of a release say nothing. Nothing else is passed over, so
versions are equal exactly if they have the same parts up to such zeros, and equal versions stand for
one another in every comparison.
-/
namespace ToolchainChoice.Version

variable {v w u : Version} {a b c : String} {m n : Nat} {ms ns : List Nat}

/-! ## Releases that differ in zeros at their end -/

theorem trimZeros_cons_eq_nil_iff : trimZeros (n :: ns) = [] ↔ n = 0 ∧ trimZeros ns = [] := by
  by_cases h : n = 0 ∧ trimZeros ns = []
  · obtain ⟨rfl, hns⟩ := h
    simp [trimZeros_zero_cons hns, hns]
  · simp [trimZeros_cons h, h]

theorem trimZeros_cons_eq_cons_iff :
    trimZeros (m :: ms) = trimZeros (n :: ns) ↔ m = n ∧ trimZeros ms = trimZeros ns := by
  rw [← Std.LawfulEqOrd.compare_eq_iff_eq (a := trimZeros (m :: ms)), compare_trimZeros_cons,
    Ordering.then_eq_eq, Std.LawfulEqOrd.compare_eq_iff_eq, Std.LawfulEqOrd.compare_eq_iff_eq]

/-- What holds of every number of a release holds of the first and of those after it. -/
theorem forall_getD_cons {p : Nat → Nat → Prop} :
    (∀ i, p i ((n :: ns).getD i 0)) ↔ p 0 n ∧ ∀ i, p (i + 1) (ns.getD i 0) := by
  constructor
  · intro h
    exact ⟨h 0, fun i => h (i + 1)⟩
  · rintro ⟨hzero, hsucc⟩ i
    cases i with
    | zero => exact hzero
    | succ i => exact hsucc i

theorem trimZeros_eq_nil_iff : trimZeros ns = [] ↔ ∀ i, ns.getD i 0 = 0 := by
  induction ns with
  | nil => simp [trimZeros]
  | cons n ns ih =>
    rw [trimZeros_cons_eq_nil_iff, ih]
    exact (forall_getD_cons (p := fun _ k => k = 0)).symm

/-- Releases are the same without the zeros at their end exactly if they have the same number in
every place, where a release that has ended goes on with zeros. -/
theorem trimZeros_eq_iff : trimZeros ms = trimZeros ns ↔ ∀ i, ms.getD i 0 = ns.getD i 0 := by
  induction ms generalizing ns with
  | nil =>
    have hnil : trimZeros ns = [] ↔ ∀ i, ns.getD i 0 = 0 := trimZeros_eq_nil_iff
    constructor
    · intro h i
      exact (hnil.mp h.symm i).symm
    · intro h
      exact (hnil.mpr fun i => (h i).symm).symm
  | cons m ms ih =>
    cases ns with
    | nil => exact trimZeros_eq_nil_iff
    | cons n ns =>
      rw [trimZeros_cons_eq_cons_iff, ih]
      exact (forall_getD_cons (p := fun i k => k = (n :: ns).getD i 0)).symm

/-! ## Keys tell parts apart -/

theorem PreTag.rank_injective {s t : PreTag} (h : s.rank = t.rank) : s = t := by
  cases s <;> cases t <;> first | rfl | contradiction

theorem devKey_injective {d e : Option Nat} (h : devKey d = devKey e) : d = e := by
  cases d <;> cases e <;> simp_all [devKey]

theorem Segment.key_injective {s t : Segment Nat} (h : s.key = t.key) : s = t := by
  cases s with
  | number n => cases t <;> simp_all [Segment.key]
  | word letters =>
    cases t with
    | number n => simp [Segment.key] at h
    | word letters' =>
      have hletters : letters.map Char.toNat = letters'.map Char.toNat := (List.cons.inj h).2
      rw [List.map_inj_right fun c d hcd => Char.toNat_inj.mp hcd] at hletters
      rw [hletters]

/-- A pre-release has a key of its own, apart from those of versions that have none. -/
theorem pre_eq_of_preKey (h : preKey v = preKey w) : v.pre = w.pre := by
  unfold preKey at h
  cases hv : v.pre with
  | none =>
    cases hw : w.pre with
    | none => rfl
    | some q =>
      rw [hv, hw] at h
      dsimp only at h
      split at h <;> simp at h
  | some p =>
    cases hw : w.pre with
    | none =>
      rw [hv, hw] at h
      dsimp only at h
      split at h <;> simp at h
    | some q =>
      rw [hv, hw] at h
      obtain ⟨hrank, hnumber⟩ : p.1.rank = q.1.rank ∧ p.2 = q.2 := by simpa using h
      rw [Prod.ext (PreTag.rank_injective hrank) hnumber]

/-! ## Equal versions -/

/-- The versions have the same parts, up to zeros at the end of their releases. -/
structure SameParts (v w : Version) : Prop where
  epoch : v.epoch = w.epoch
  release : ∀ i, v.release.getD i 0 = w.release.getD i 0
  pre : v.pre = w.pre
  post : v.post = w.post
  dev : v.dev = w.dev
  locals : v.locals = w.locals

theorem SameParts.majorMinor_eq (h : v.SameParts w) : v.majorMinor = w.majorMinor := by
  have hmajor : v.major = w.major := h.release 0
  have hminor : v.more.getD 0 0 = w.more.getD 0 0 := h.release 1
  have hhead : ∀ ns : List Nat, ns.getD 0 0 = ns.headD 0 := fun ns => by cases ns <;> rfl
  rw [hhead, hhead] at hminor
  unfold majorMinor
  rw [hmajor, hminor]

theorem key_eq_iff : v.key = w.key ↔ v.SameParts w := by
  constructor
  · intro h
    have hlocals : v.locals = w.locals := by
      have hkeys := congrArg Key.locals h
      refine (Option.map_inj_right ?_).mp hkeys
      intro ss ts hsegments
      exact (List.map_inj_right fun s t => Segment.key_injective).mp hsegments
    exact {
      epoch := congrArg Key.epoch h
      release := trimZeros_eq_iff.mp (congrArg Key.release h)
      pre := pre_eq_of_preKey (congrArg Key.pre h)
      post := congrArg Key.post h
      dev := devKey_injective (congrArg Key.dev h)
      locals := hlocals }
  · rintro ⟨hepoch, hrelease, hpre, hpost, hdev, hlocals⟩
    unfold key preKey
    rw [hepoch, trimZeros_eq_iff.mpr hrelease, hpre, hpost, hdev, hlocals]

theorem compare_eq_eq_iff : compare v w = .eq ↔ v.SameParts w := by
  rw [← key_eq_iff, compare_def, Key.compare]
  simp only [compareLex, compareOn, Ordering.then_eq_eq, Std.LawfulEqOrd.compare_eq_iff_eq]
  constructor
  · rintro ⟨hepoch, hrelease, hpre, hpost, hdev, hlocals⟩
    exact Key.mk.injEq .. ▸ ⟨hepoch, hrelease, hpre, hpost, hdev, hlocals⟩
  · intro h
    rw [h]
    exact ⟨rfl, rfl, rfl, rfl, rfl, rfl⟩

/-! ## Texts -/

theorem compareTexts_of_read (hv : read a = .ok v) (hw : read b = .ok w) :
    compareTexts a b = .ok (compare v w) :=
  compareTexts_eq_ok_iff.mpr ⟨v, w, hv, hw, rfl⟩

theorem compareTexts_eq_eq_iff :
    compareTexts a b = .ok .eq ↔
      ∃ v w, read a = .ok v ∧ read b = .ok w ∧ v.SameParts w := by
  rw [compareTexts_eq_ok_iff]
  simp only [compare_eq_eq_iff]

theorem compareTexts_isLE_trans {ab bc : Ordering} (hab : compareTexts a b = .ok ab)
    (hbc : compareTexts b c = .ok bc) (hab' : ab.isLE = true) (hbc' : bc.isLE = true) :
    ∃ ac, compareTexts a c = .ok ac ∧ ac.isLE = true := by
  obtain ⟨v, w, hv, hw, rfl⟩ := compareTexts_eq_ok_iff.mp hab
  obtain ⟨w', u, hw', hu, rfl⟩ := compareTexts_eq_ok_iff.mp hbc
  obtain rfl := except_ok_unique hw hw'
  exact ⟨compare v u, compareTexts_of_read hv hu, Std.TransCmp.isLE_trans hab' hbc'⟩

/-- Equal versions compare in the same way with every text, even with one that is no version. -/
theorem compareTexts_congr (h : compareTexts a b = .ok .eq) (c : String) :
    compareTexts a c = compareTexts b c ∧ compareTexts c a = compareTexts c b := by
  obtain ⟨v, w, hv, hw, heq⟩ := compareTexts_eq_ok_iff.mp h
  unfold compareTexts
  rw [require_eq_ok_iff.mpr hv, require_eq_ok_iff.mpr hw]
  cases require c with
  | error e => exact ⟨rfl, rfl⟩
  | ok u =>
    have hleft : compare v u = compare w u := Std.TransCmp.congr_left heq
    have hright : compare u v = compare u w := Std.TransCmp.congr_right heq
    exact ⟨congrArg Except.ok hleft, congrArg Except.ok hright⟩

/-- **The preorder.** Texts that are versions can be compared: each with itself, two of them in either
direction with opposite answers, and three of them in a chain. Equal ones compare in the same way with
every third one; and they are those that have the same parts up to zeros at the end of a release. -/
theorem compareTexts_total_preorder (ha : isValid a = .ok true) (hb : isValid b = .ok true)
    (hc : isValid c = .ok true) :
    compareTexts a a = .ok .eq ∧
      (∃ order, compareTexts a b = .ok order ∧ compareTexts b a = .ok order.swap) ∧
      (∃ ab bc ac, compareTexts a b = .ok ab ∧ compareTexts b c = .ok bc ∧
        compareTexts a c = .ok ac ∧ (ab.isLE = true → bc.isLE = true → ac.isLE = true)) ∧
      (compareTexts a b = .ok .eq →
        compareTexts a c = compareTexts b c ∧ compareTexts c a = compareTexts c b) ∧
      (compareTexts a b = .ok .eq ↔
        ∃ v w, read a = .ok v ∧ read b = .ok w ∧ v.SameParts w) := by
  obtain ⟨v, hv⟩ := isValid_eq_true_iff.mp ha
  obtain ⟨w, hw⟩ := isValid_eq_true_iff.mp hb
  obtain ⟨u, hu⟩ := isValid_eq_true_iff.mp hc
  have hab := compareTexts_of_read hv hw
  have hbc := compareTexts_of_read hw hu
  have hac := compareTexts_of_read hv hu
  refine ⟨compareTexts_self hv, ⟨_, hab, compareTexts_swap hab⟩, ⟨_, _, _, hab, hbc, hac, ?_⟩,
    fun h => compareTexts_congr h c, compareTexts_eq_eq_iff⟩
  intro hle hle'
  obtain ⟨order, hac', horder⟩ := compareTexts_isLE_trans hab hbc hle hle'
  obtain rfl := except_ok_unique hac hac'
  exact horder

/-- What 1.20 is to 1.21rc1 each spelling of it is: it is lower. -/
theorem compareTexts_total_preorder_for_1_20 :
    isValid "1.20" = .ok true ∧ isValid "go1.20.0" = .ok true ∧ isValid "v1.21-rc.1" = .ok true ∧
      compareTexts "1.20" "go1.20.0" = .ok .eq ∧
      compareTexts "go1.20.0" "v1.21-rc.1" = .ok .lt ∧
      compareTexts "v1.21-rc.1" "go1.20.0" = .ok .gt := by
  have hequal : compareTexts "1.20" "go1.20.0" = .ok .eq := rfl
  have hlower : compareTexts "1.20" "v1.21-rc.1" = .ok .lt := rfl
  obtain ⟨-, -, -, hcongr, -⟩ :=
    compareTexts_total_preorder (a := "1.20") (b := "go1.20.0") (c := "v1.21-rc.1") rfl rfl rfl
  obtain ⟨hleft, hright⟩ := hcongr hequal
  exact ⟨rfl, rfl, rfl, hequal, hleft.symm.trans hlower,
    hright.symm.trans (compareTexts_swap hlower)⟩

end ToolchainChoice.Version
