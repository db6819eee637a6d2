import ToolchainChoice.Proofs.Number.Digits
import ToolchainChoice.Proofs.Text.Tokens
import ToolchainChoice.Proofs.Version.DottedNumbers
import ToolchainChoice.Proofs.Version.Preorder

/-!
# Versions that are numbers and nothing else

Numbers in decimal digits with points between them are a version, and such versions compare number by
number. The shorter release goes on with zeros, so neither its length nor the length of its text says
anything. Zeros ahead of a number make no difference to what is read. They do count as digits,
though: no number is written in more digits than the limit.
-/
namespace ToolchainChoice.Version

open Number (digitLimit digitsBehind)

/-- A number as it is written: its decimal digits behind some zeros. -/
structure Numeral where
  zeros : Nat
  number : Nat

def Numeral.digits (n : Numeral) : List Char := digitsBehind n.zeros n.number

/-- Numbers in decimal digits, with points between them. -/
def rendered (ns : List Nat) : String := ".".intercalate (ns.map toString)

/-- Numbers with zeros ahead of them, with points between them. -/
def spelled (ns : List Numeral) : String :=
  ".".intercalate (ns.map fun n => String.ofList n.digits)

/-- The release, continued by zeros up to this many numbers. -/
def padded (length : Nat) (ns : List Nat) : List Nat :=
  ns ++ List.replicate (length - ns.length) 0

/-- The lexicographic order of two releases, of which the shorter goes on with zeros. -/
def comparePadded (ms ns : List Nat) : Ordering :=
  compare (padded (max ms.length ns.length) ms) (padded (max ms.length ns.length) ns)

variable {m n : Nat} {ms ns : List Nat} {p : Numeral} {ps : List Numeral}

/-! ## From the text to the numbers -/

theorem Numeral.isRun_digits (n : Numeral) : IsRun n.digits :=
  ⟨Number.digitsBehind_ne_nil, Number.isDigit_of_mem_digitsBehind⟩

theorem toList_spelled (p : Numeral) (ps : List Numeral) :
    (spelled (p :: ps)).toList = dotted p.digits (ps.map Numeral.digits) := by
  have htexts : ((p :: ps).map fun n => String.ofList n.digits).map String.toList =
      p.digits :: ps.map Numeral.digits := by
    simp [Function.comp_def, String.toList_ofList]
  rw [spelled, String.toList_intercalate, htexts]
  exact Text.intercalate_cons_eq_append '.' p.digits (ps.map Numeral.digits)

/-- Plain decimal digits have no zeros ahead of them. -/
theorem rendered_eq_spelled (ns : List Nat) : rendered ns = spelled (ns.map (Numeral.mk 0)) := by
  have htexts : ns.map toString =
      (ns.map (Numeral.mk 0)).map fun n => String.ofList n.digits := by
    rw [List.map_map]
    apply List.map_congr_left
    intro n _
    show n.repr = String.ofList (digitsBehind 0 n)
    rw [Number.digitsBehind_zero, Nat.repr_eq_ofList_toDigits]
  rw [rendered, htexts, spelled]

/-- The version with these numbers and nothing else. -/
def ofNumbers (major : Nat) (more : List Nat) : Version := { epoch := 0, major := major, more := more }

theorem read_spelled (hfit : ∀ q ∈ p :: ps, q.digits.length ≤ digitLimit) :
    read (spelled (p :: ps)) = .ok (ofNumbers p.number (ps.map Numeral.number)) := by
  have hruns : ∀ ds ∈ ps.map Numeral.digits, IsRun ds := by
    intro ds hds
    obtain ⟨q, -, rfl⟩ := List.mem_map.mp hds
    exact q.isRun_digits
  have hwritten : Written.ofText? (spelled (p :: ps)).toList =
      some { epoch := [], major := p.digits, more := ps.map Numeral.digits } := by
    rw [toList_spelled]
    exact Written.ofText?_dotted p.isRun_digits hruns
  have hshort : ∀ ds ∈ Parts.numbers
      ({ epoch := [], major := p.digits, more := ps.map Numeral.digits } : Written),
      ds.length ≤ digitLimit := by
    intro ds hds
    simp only [Parts.numbers, Parts.release, List.mem_append, List.mem_cons] at hds
    simp only [Option.map_none, Option.toList_none, Option.getD_none, List.flatMap_nil,
      List.not_mem_nil, or_false] at hds
    obtain rfl | rfl | hds := hds
    · exact Nat.zero_le _
    · exact hfit p List.mem_cons_self
    · obtain ⟨q, hq, rfl⟩ := List.mem_map.mp hds
      exact hfit q (List.mem_cons_of_mem p hq)
  have hvalues : (ps.map Numeral.digits).map Number.digitsValue = ps.map Numeral.number := by
    rw [List.map_map]
    apply List.map_congr_left
    intro q _
    exact Number.digitsValue_digitsBehind q.zeros q.number
  rw [read_of_digitsFit hwritten hshort]
  show Except.ok (Parts.mk 0 (Number.digitsValue p.digits)
    ((ps.map Numeral.digits).map Number.digitsValue) none none none none) = _
  rw [hvalues, Numeral.digits, Number.digitsValue_digitsBehind]
  rfl

/-! ## The order of the numbers -/

theorem getD_padded (length : Nat) (ns : List Nat) (i : Nat) :
    (padded length ns).getD i 0 = ns.getD i 0 := by
  rw [padded, List.getD_eq_getElem?_getD, List.getD_eq_getElem?_getD, List.getElem?_append]
  by_cases hi : i < ns.length
  · rw [if_pos hi]
  · have hend : ns[i]? = none := List.getElem?_eq_none (by omega)
    rw [if_neg hi, hend, List.getElem?_replicate]
    split <;> rfl

theorem length_padded {length : Nat} (h : ns.length ≤ length) : (padded length ns).length = length := by
  rw [padded, List.length_append, List.length_replicate]
  omega

/-- Zeros at the end of a release have no weight. -/
theorem trimZeros_padded (length : Nat) (ns : List Nat) :
    trimZeros (padded length ns) = trimZeros ns :=
  trimZeros_eq_iff.mpr (getD_padded length ns)

/-- Between releases of one length the order is the lexicographic one, zeros at their end or not. -/
theorem compare_trimZeros_of_length_eq (h : ms.length = ns.length) :
    compare (trimZeros ms) (trimZeros ns) = compare ms ns := by
  induction ms generalizing ns with
  | nil =>
    obtain rfl : ns = [] := List.eq_nil_of_length_eq_zero h.symm
    rfl
  | cons m ms ih =>
    cases ns with
    | nil => contradiction
    | cons n ns =>
      have htail : ms.length = ns.length := Nat.succ.inj h
      rw [compare_trimZeros_cons, ih htail, List.compare_cons_cons]

theorem compare_trimZeros (ms ns : List Nat) :
    compare (trimZeros ms) (trimZeros ns) = comparePadded ms ns := by
  have hlength : (padded (max ms.length ns.length) ms).length =
      (padded (max ms.length ns.length) ns).length := by
    rw [length_padded (Nat.le_max_left _ _), length_padded (Nat.le_max_right _ _)]
  rw [comparePadded, ← compare_trimZeros_of_length_eq hlength, trimZeros_padded, trimZeros_padded]

/-- Where versions have nothing but a release, the release decides. -/
theorem compare_ofNumbers (m n : Nat) (ms ns : List Nat) :
    compare (ofNumbers m ms) (ofNumbers n ns) = comparePadded (m :: ms) (n :: ns) := by
  rw [← compare_trimZeros]
  show (compare 0 0).then ((compare (trimZeros (m :: ms)) (trimZeros (n :: ns))).then .eq) = _
  rw [Ordering.then_eq, Nat.compare_eq_eq.mpr rfl, Ordering.eq_then]

theorem majorMinor_ofNumbers (m : Nat) (ms : List Nat) :
    (ofNumbers m ms).majorMinor = ⟨(m :: ms).getD 0 0, (m :: ms).getD 1 0⟩ := by
  cases ms <;> rfl

/-! ## Texts -/

theorem read_rendered (hfit : ∀ x ∈ n :: ns, (Nat.toDigits 10 x).length ≤ digitLimit) :
    read (rendered (n :: ns)) = .ok (ofNumbers n ns) := by
  have hshort : ∀ q ∈ (n :: ns).map (Numeral.mk 0), q.digits.length ≤ digitLimit := by
    intro q hq
    obtain ⟨x, hx, rfl⟩ := List.mem_map.mp hq
    exact hfit x hx
  have hnumbers : (ns.map (Numeral.mk 0)).map Numeral.number = ns := by
    rw [List.map_map]
    exact List.map_id ns
  rw [rendered_eq_spelled, List.map_cons, read_spelled hshort, hnumbers]

/-- Zeros ahead of the numbers of a release are not read. -/
theorem read_spelled_eq (hfit : ∀ q ∈ ps, q.digits.length ≤ digitLimit)
    (hplain : ∀ x ∈ ps.map Numeral.number, (Nat.toDigits 10 x).length ≤ digitLimit) (hps : ps ≠ []) :
    read (spelled ps) = read (rendered (ps.map Numeral.number)) := by
  obtain ⟨p, ps, rfl⟩ := List.exists_cons_of_ne_nil hps
  rw [List.map_cons] at hplain ⊢
  rw [read_spelled hfit, read_rendered hplain]

/-- **Dotted numbers.** Numbers of at most 4300 digits with points between them are compared number by
number, the shorter release continued by zeros, and their first two numbers are the first two, where a
missing second one is zero. Zeros ahead of the numbers change nothing: the text is read as it is
without them, and it compares as it does without them with every other text, be that a version or
not. -/
theorem compareTexts_rendered {xs ys : List Nat} (hxs : xs ≠ []) (hys : ys ≠ [])
    (hfit : ∀ x ∈ xs, (Nat.toDigits 10 x).length ≤ digitLimit)
    (hfit' : ∀ y ∈ ys, (Nat.toDigits 10 y).length ≤ digitLimit) :
    compareTexts (rendered xs) (rendered ys) = .ok (comparePadded xs ys) ∧
      majorMinorOf (rendered xs) = .ok ⟨xs.getD 0 0, xs.getD 1 0⟩ ∧
      ∀ ps : List Numeral, ps.map Numeral.number = xs →
        (∀ p ∈ ps, p.digits.length ≤ digitLimit) →
        read (spelled ps) = read (rendered xs) ∧
          majorMinorOf (spelled ps) = majorMinorOf (rendered xs) ∧
          ∀ other, compareTexts (spelled ps) other = compareTexts (rendered xs) other ∧
            compareTexts other (spelled ps) = compareTexts other (rendered xs) := by
  obtain ⟨x, xs, rfl⟩ := List.exists_cons_of_ne_nil hxs
  obtain ⟨y, ys, rfl⟩ := List.exists_cons_of_ne_nil hys
  have hread := read_rendered hfit
  have hread' := read_rendered hfit'
  have hnumbers : majorMinorOf (rendered (x :: xs)) =
      .ok ⟨(x :: xs).getD 0 0, (x :: xs).getD 1 0⟩ :=
    majorMinorOf_eq_ok_iff.mpr ⟨_, hread, majorMinor_ofNumbers x xs⟩
  refine ⟨?_, hnumbers, ?_⟩
  · rw [compareTexts_of_read hread hread', compare_ofNumbers]
  · intro ps hps hshort
    have hne : ps ≠ [] := by
      intro hnil
      rw [hnil] at hps
      contradiction
    have hsame : read (spelled ps) = read (rendered (x :: xs)) := by
      rw [← hps] at hfit ⊢
      exact read_spelled_eq hshort hfit hne
    have hspelled := hsame.trans hread
    refine ⟨hsame, ?_, ?_⟩
    · rw [hnumbers]
      exact majorMinorOf_eq_ok_iff.mpr ⟨_, hspelled, majorMinor_ofNumbers x xs⟩
    · intro other
      have hequal : compareTexts (spelled ps) (rendered (x :: xs)) = .ok .eq :=
        compareTexts_eq_ok_iff.mpr ⟨_, _, hspelled, hread, Std.ReflCmp.compare_self⟩
      exact compareTexts_congr hequal other

/-- 1.9 is below 1.10.0, and so is 01.009, which has more characters and the greater last digit. -/
theorem compareTexts_rendered_1_9 :
    rendered [1, 9] = "1.9" ∧ rendered [1, 10, 0] = "1.10.0" ∧
      spelled [⟨1, 1⟩, ⟨2, 9⟩] = "01.009" ∧
      compareTexts "1.9" "1.10.0" = .ok .lt ∧ majorMinorOf "1.9" = .ok ⟨1, 9⟩ ∧
      compareTexts "01.009" "1.10.0" = .ok .lt := by
  have hdigits : ∀ x ∈ [1, 9], (Nat.toDigits 10 x).length ≤ digitLimit := by
    rw [List.forall_mem_cons, List.forall_mem_singleton]
    decide
  have hdigits' : ∀ x ∈ [1, 10, 0], (Nat.toDigits 10 x).length ≤ digitLimit := by
    rw [List.forall_mem_cons, List.forall_mem_cons, List.forall_mem_singleton]
    decide
  have hspelled : ∀ p ∈ [Numeral.mk 1 1, Numeral.mk 2 9], p.digits.length ≤ digitLimit := by
    rw [List.forall_mem_cons, List.forall_mem_singleton]
    decide
  obtain ⟨hcompare, hnumbers, hzeros⟩ :=
    compareTexts_rendered (by decide) (by decide) hdigits hdigits'
  obtain ⟨-, -, hsame⟩ := hzeros [⟨1, 1⟩, ⟨2, 9⟩] rfl hspelled
  exact ⟨rfl, rfl, rfl, hcompare, hnumbers, (hsame "1.10.0").1.trans hcompare⟩

end ToolchainChoice.Version
