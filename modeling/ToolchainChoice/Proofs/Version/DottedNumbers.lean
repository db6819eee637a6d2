import ToolchainChoice.Version.Reading

/-!
# Versions that are numbers with points between them

Runs of ASCII digits with single points between them are a version, and reading gives back the runs.
The mark of a pre-release may follow them (`EndsRelease`). This holds of runs of every length: whether a
run is short enough to be a number is asked only afterwards, so a text of this kind with one long run is
a version that cannot be read.
-/
namespace ToolchainChoice.Version

open Text (isBlank stripEnd)

/-- A run of ASCII digits, one at least. -/
def IsRun (ds : List Char) : Prop := ds ≠ [] ∧ ∀ c ∈ ds, c.isDigit = true

instance (ds : List Char) : Decidable (IsRun ds) :=
  decidable_of_iff ((!ds.isEmpty && ds.all Char.isDigit) = true) (by
    rw [Bool.and_eq_true, Bool.not_eq_true', List.isEmpty_eq_false_iff, List.all_eq_true]
    exact Iff.rfl)

theorem isRun_replicate {n : Nat} (hn : n ≠ 0) {c : Char} (hc : c.isDigit = true) :
    IsRun (List.replicate n c) := by
  constructor
  · intro h
    exact hn ((List.replicate_eq_nil_iff c).mp h)
  · intro d hd
    rw [List.eq_of_mem_replicate hd, hc]

/-- Runs with points between them. -/
def dotted (first : List Char) (more : List (List Char)) : List Char :=
  first ++ more.flatMap ('.' :: ·)

/-! ## Digits among characters -/

/-- What holds of the ten digits holds of every character that is a digit. -/
theorem of_isDigit {p : Char → Bool} (hp : ∀ n ∈ List.range' 48 10, p (Char.ofNat n) = true)
    {c : Char} (h : c.isDigit = true) : p c = true := by
  simp only [Char.isDigit, Bool.and_eq_true, decide_eq_true_eq] at h
  have hl : 48 ≤ c.toNat := UInt32.le_iff_toNat_le.mp h.1
  have hu : c.toNat ≤ 57 := UInt32.le_iff_toNat_le.mp h.2
  have hc := hp c.toNat (List.mem_range'_1.mpr ⟨hl, by omega⟩)
  rwa [Char.ofNat_toNat] at hc

/-- The characters of dotted runs: none is a blank, and none has another lower case. -/
structure IsPlain (c : Char) : Prop where
  not_blank : isBlank c = false
  lower : c.toLower = c

theorem isPlain_of_isDigit {c : Char} (h : c.isDigit = true) : IsPlain c where
  not_blank := by
    simpa using of_isDigit (p := fun c => !isBlank c) (by decide) h
  lower := by
    simpa using of_isDigit (p := fun c => c.toLower == c) (by decide) h

theorem isPlain_point : IsPlain '.' := ⟨by decide, by decide⟩

variable {first : List Char} {more : List (List Char)}

theorem digit_or_point_of_mem_dotted (hf : IsRun first) (hm : ∀ ds ∈ more, IsRun ds) :
    ∀ c ∈ dotted first more, c.isDigit = true ∨ c = '.' := by
  intro c hc
  rcases List.mem_append.mp hc with hc | hc
  · exact .inl (hf.2 c hc)
  · obtain ⟨ds, hds, hc⟩ := List.mem_flatMap.mp hc
    rcases List.mem_cons.mp hc with rfl | hc
    · exact .inr rfl
    · exact .inl ((hm ds hds).2 c hc)

theorem isPlain_of_mem_dotted (hf : IsRun first) (hm : ∀ ds ∈ more, IsRun ds) :
    ∀ c ∈ dotted first more, IsPlain c := by
  intro c hc
  rcases digit_or_point_of_mem_dotted hf hm c hc with hdigit | rfl
  · exact isPlain_of_isDigit hdigit
  · exact isPlain_point

/-! ## What is taken off a text -/

theorem stripEnd_eq_self {cs : List Char} (h : ∀ c ∈ cs, isBlank c = false) :
    stripEnd cs = cs := by
  induction cs with
  | nil => rfl
  | cons c cs ih =>
    rw [Text.stripEnd_cons (h c List.mem_cons_self), ih fun d hd => h d (List.mem_cons_of_mem c hd)]

namespace Written

theorem skipGo_of_ne {c : Char} (hg : c ≠ 'g') (cs : List Char) : skipGo (c :: cs) = c :: cs := by
  simp [skipGo, after?, Ne.symm hg]

theorem skipV_of_ne {c : Char} (hv : c ≠ 'v') (cs : List Char) : skipV (c :: cs) = c :: cs := by
  unfold skipV
  split
  · simp_all
  · rfl

/-- Of a text that does not begin with `go` only the blanks at its ends are taken off. -/
theorem stripGo_cons {c : Char} (hc : isBlank c = false) (hg : c ≠ 'g') (cs : List Char) :
    ofText?.stripGo (c :: cs) = c :: stripEnd cs := by
  rw [ofText?.stripGo, Text.strip_cons hc, skipGo_of_ne hg, Text.strip_cons hc,
    Text.stripEnd_stripEnd]

/-! ## Reading the release -/

theorem startsWithDigit_append {ds : List Char} (h : IsRun ds) (rest : List Char) :
    startsWithDigit (ds ++ rest) = true := by
  obtain ⟨hne, hds⟩ := h
  cases ds with
  | nil => contradiction
  | cons c cs => exact hds c List.mem_cons_self

theorem release_append {ds : List Char} (h : ∀ c ∈ ds, c.isDigit = true) (run rest : List Char) :
    release run (ds ++ rest) = release (run ++ ds) rest := by
  induction ds generalizing run with
  | nil => simp
  | cons c cs ih =>
    have hc := h c List.mem_cons_self
    rw [List.cons_append, release, if_pos hc,
      ih fun d hd => h d (List.mem_cons_of_mem c hd), List.append_assoc, List.singleton_append]

/-- A version in plain characters that starts with a digit has nothing around it. -/
theorem ofText?_of_plain {cs : List Char} (hplain : ∀ c ∈ cs, IsPlain c)
    (hstart : startsWithDigit cs = true) : ofText? cs = ofLower? cs := by
  have hblank : stripEnd cs = cs := stripEnd_eq_self fun c hc => (hplain c hc).not_blank
  have hlower : cs.map Char.toLower = cs :=
    (List.map_congr_left fun c hc => (hplain c hc).lower).trans (List.map_id _)
  cases cs with
  | nil => contradiction
  | cons c cs =>
    have hc := (hplain c List.mem_cons_self).not_blank
    have hg : c ≠ 'g' := by simpa using of_isDigit (p := fun c => c != 'g') (by decide) hstart
    have hv : c ≠ 'v' := by simpa using of_isDigit (p := fun c => c != 'v') (by decide) hstart
    rw [ofText?, stripGo_cons hc hg, ← Text.stripEnd_cons hc, hblank, hlower, skipV_of_ne hv]

/-- What may follow the release if nothing follows the pre-release, and the pre-release it is. -/
structure EndsRelease (rest : List Char) (pre : Option (PreTag × List Char)) : Prop where
  plain : ∀ c ∈ rest, IsPlain c
  mark : '!' ∉ rest
  stop : ∀ run, release run rest = ([run], rest)
  pre : preRelease rest = (pre, [])

theorem endsRelease_nil : EndsRelease [] none where
  plain := List.forall_mem_nil _
  mark := List.not_mem_nil
  stop _ := rfl
  pre := rfl

variable {rest : List Char} {pre : Option (PreTag × List Char)}

/-- The release of dotted runs is the runs, and what follows them is left: by induction on the runs. -/
theorem release_dotted (hf : ∀ c ∈ first, c.isDigit = true) (hm : ∀ ds ∈ more, IsRun ds)
    (hrest : EndsRelease rest pre) (run : List Char) :
    release run (dotted first more ++ rest) = ((run ++ first) :: more, rest) := by
  induction more generalizing run first with
  | nil =>
    rw [dotted, List.flatMap_nil, List.append_nil, release_append hf, hrest.stop]
  | cons ds more ih =>
    have hds := hm ds List.mem_cons_self
    have hmore : dotted first (ds :: more) ++ rest = first ++ '.' :: (dotted ds more ++ rest) := by
      simp [dotted]
    have hstart : startsWithDigit (dotted ds more ++ rest) = true := by
      rw [dotted, List.append_assoc]
      exact startsWithDigit_append hds _
    rw [hmore, release_append hf, release, if_neg (by decide), if_pos ⟨rfl, hstart⟩,
      ih hds.2 (fun es hes => hm es (List.mem_cons_of_mem ds hes))]
    rfl

theorem epoch_of_notMem {cs : List Char} (h : '!' ∉ cs) : epoch cs = ([], cs) := by
  unfold epoch digits
  split
  · rename_i ds rest hdigits
    have hafter : cs.dropWhile Char.isDigit = '!' :: rest := (Prod.ext_iff.mp hdigits).2
    have hmark : '!' ∈ cs.dropWhile Char.isDigit := by
      rw [hafter]
      exact List.mem_cons_self
    exact absurd ((List.dropWhile_sublist _).subset hmark) h
  · rfl

theorem epoch_dotted (hf : IsRun first) (hm : ∀ ds ∈ more, IsRun ds) (hrest : EndsRelease rest pre) :
    epoch (dotted first more ++ rest) = ([], dotted first more ++ rest) := by
  apply epoch_of_notMem
  intro hmark
  rcases List.mem_append.mp hmark with hmark | hmark
  · have hnot : ¬ ('!'.isDigit = true ∨ '!' = '.') := by decide
    exact hnot (digit_or_point_of_mem_dotted hf hm '!' hmark)
  · exact hrest.mark hmark

/-- Dotted runs are a version as written, with the runs as its release. -/
theorem ofText?_dotted_append (hf : IsRun first) (hm : ∀ ds ∈ more, IsRun ds)
    (hrest : EndsRelease rest pre) :
    ofText? (dotted first more ++ rest) =
      some { epoch := [], major := first, more := more, pre := pre } := by
  have hplain : ∀ c ∈ dotted first more ++ rest, IsPlain c :=
    List.forall_mem_append.mpr ⟨isPlain_of_mem_dotted hf hm, hrest.plain⟩
  have hstart : startsWithDigit (dotted first more ++ rest) = true := by
    rw [dotted, List.append_assoc]
    exact startsWithDigit_append hf _
  rw [ofText?_of_plain hplain hstart]
  unfold ofLower?
  rw [epoch_dotted hf hm hrest]
  simp only [hstart, ↓reduceIte, release_dotted hf.2 hm hrest, hrest.pre]
  rfl

theorem ofText?_dotted (hf : IsRun first) (hm : ∀ ds ∈ more, IsRun ds) :
    ofText? (dotted first more) = some { epoch := [], major := first, more := more } := by
  have hread := ofText?_dotted_append hf hm endsRelease_nil
  rwa [List.append_nil] at hread

/-- Blanks before a text make no difference to how it is read. -/
theorem ofText?_blanks_append {blanks : List Char} (h : ∀ c ∈ blanks, isBlank c = true)
    (cs : List Char) : ofText? (blanks ++ cs) = ofText? cs := by
  unfold ofText? ofText?.stripGo
  rw [Text.strip_blanks_append h]

/-- Blanks after a text make no difference to how it is read. -/
theorem ofText?_append_blanks {cs blanks : List Char} (h : ∀ c ∈ blanks, isBlank c = true) :
    ofText? (cs ++ blanks) = ofText? cs := by
  unfold ofText? ofText?.stripGo
  rw [Text.strip_append h]

end Written

/-! ## Numbers that are short enough -/

/-- A version as written whose numbers are short enough is a version. -/
theorem read_of_digitsFit {text : String} {w : Written}
    (h : Written.ofText? text.toList = some w)
    (hfit : ∀ ds ∈ w.numbers, ds.length ≤ Number.digitLimit) :
    read text = .ok (w.map Number.digitsValue) := by
  have hall : w.numbers.all Number.digitsFit = true := by
    rw [List.all_eq_true]
    intro ds hds
    exact decide_eq_true (hfit ds hds)
  unfold read ofChars
  rw [h]
  simp only [ofWritten, if_pos hall]

/-! ## Numbers that are too long -/

/-- A text cannot be read for the length of a number exactly if it is a version as written, and one
of its runs is longer than the limit. -/
theorem read_eq_numberTooLong_iff {text : String} :
    read text = .error .numberTooLong ↔
      ∃ w, Written.ofText? text.toList = some w ∧
        ∃ ds ∈ w.numbers, Number.digitLimit < ds.length := by
  unfold read ofChars
  cases Written.ofText? text.toList with
  | none => simp
  | some w =>
    simp only [ofWritten, Option.some.injEq, exists_eq_left']
    split
    · rename_i hfit
      simp only [reduceCtorEq, false_iff, not_exists, not_and, Nat.not_lt]
      intro ds hds
      simpa [Number.digitsFit] using List.all_eq_true.mp hfit ds hds
    · rename_i hfit
      simpa [Number.digitsFit] using hfit

/-- A long run among dotted runs stands among the numbers of the version as written. -/
theorem exists_long_of_dotted (hf : IsRun first) (hm : ∀ ds ∈ more, IsRun ds) {long : List Char}
    (hmem : long ∈ first :: more) (hlong : Number.digitLimit < long.length) :
    ∃ w, Written.ofText? (String.ofList (dotted first more)).toList = some w ∧
      ∃ ds ∈ w.numbers, Number.digitLimit < ds.length := by
  let written : Written := { epoch := [], major := first, more := more }
  have hread : Written.ofText? (String.ofList (dotted first more)).toList = some written := by
    rw [String.toList_ofList]
    exact Written.ofText?_dotted hf hm
  have hnumber : long ∈ written.numbers := by
    simp only [written, Parts.numbers, Parts.release, List.mem_append, List.mem_cons] at hmem ⊢
    exact .inl (.inl (.inl (.inl (.inr hmem))))
  exact ⟨written, hread, long, hnumber, hlong⟩

end ToolchainChoice.Version
