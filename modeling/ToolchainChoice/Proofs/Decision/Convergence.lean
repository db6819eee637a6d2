import ToolchainChoice.Proofs.Decision.Resolution

/-!
# Deciding and installing in turn

An advice that is followed leaves nothing to be done: the version that was installed is classified
within the range, and reaches whatever the same declared version asks for, itself. Deciding and
installing in turn therefore ends with at most one installation. Nothing is assumed of the declared
version except that there is a first decision; that there is a second one is proved.
-/
namespace ToolchainChoice

/-- What is known after a version has been installed. -/
def Survey.install (s : Survey) (version : String) : Survey :=
  { s with installed := .seen version }

namespace Decision

variable {range : SupportedRange} {toolchain : Toolchain} {survey : Survey} {d : State}
variable {advice : Advice} {version : String}

/-- Deciding and installing in turn, from a survey on, installs the versions of the list one after
another and then comes to the advice to install nothing. -/
inductive Installs (range : SupportedRange) (toolchain : Toolchain) : Survey → List String → Prop
  | done {survey : Survey} {advice : Advice} (h : advise range toolchain survey = .ok advice)
      (hr : advice.requiresInstall = false) : Installs range toolchain survey []
  | next {survey : Survey} {advice : Advice} {rest : List String}
      (h : advise range toolchain survey = .ok advice) (hr : advice.requiresInstall = true)
      (ht : Installs range toolchain (survey.install advice.version) rest) :
      Installs range toolchain survey (advice.version :: rest)

/-- A run of installations is determined by the survey that it starts from. -/
theorem Installs.unique {first second : List String} (hf : Installs range toolchain survey first)
    (hs : Installs range toolchain survey second) : first = second := by
  induction hf generalizing second with
  | done h hr =>
    cases hs with
    | done h' hr' => rfl
    | next h' hr' ht' =>
      obtain rfl := except_ok_unique h h'
      rw [hr] at hr'
      contradiction
  | next h hr ht ih =>
    cases hs with
    | done h' hr' =>
      obtain rfl := except_ok_unique h h'
      rw [hr] at hr'
      contradiction
    | next h' hr' ht' =>
      obtain rfl := except_ok_unique h h'
      rw [ih ht']

/-- With what it calls for installed, a declared version calls for nothing more. -/
theorem settled_install (hd : State.classify range survey.declared = .ok d)
    (hv : version = d.target.version range survey) :
    Settled range (survey.install version) d .within := by
  by_cases hn : d.reference? = none
  · exact .inl (State.idle_within_of_reference?_eq_none hn)
  · obtain ⟨reference, hr⟩ := Option.ne_none_iff_exists'.mp hn
    refine .inr ⟨rfl, reference, hr, .eq, ?_, by decide⟩
    obtain ⟨w, hw⟩ := SupportedRange.exists_read_of_contains (contains_target hd)
    have hinstalled : (survey.install version).installed.text = d.target.version range survey := hv
    have hreference : reference.version range (survey.install version) =
        d.target.version range survey := reference_version_eq hr
    rw [hinstalled, hreference]
    exact Version.compareTexts_self hw

/-- After the installation of what was recommended, there is again an advice, and it is to install
nothing. -/
theorem exists_advise_install (h : advise range toolchain survey = .ok advice)
    (hne : advice.version ≠ "") :
    ∃ again, advise range toolchain (survey.install advice.version) = .ok again ∧
      again.version = "" := by
  obtain ⟨d, i, hd, -, ⟨-, hv⟩ | ⟨-, hv⟩⟩ := advise_cases h
  · exact absurd hv hne
  · have hi : State.classify range (survey.install advice.version).installed = .ok .within := by
      refine State.classify_eq_within_iff.mpr ⟨rfl, ?_⟩
      change range.contains advice.version = .ok true
      rw [hv]
      exact contains_target hd
    have hd' : State.classify range (survey.install advice.version).declared = .ok d := hd
    obtain ⟨again, ha, hsettled, -⟩ := exists_advise_of_states toolchain hd' hi
    exact ⟨again, ha, hsettled (settled_install hd hv)⟩

/-- **Convergence.** If there is an advice to install a version, then after its installation there
is an advice, and it is to install nothing. So deciding and installing in turn ends, and installs
one version at most. -/
theorem advise_converges (h : advise range toolchain survey = .ok advice) :
    (advice.version ≠ "" →
      ∃ again, advise range toolchain (survey.install advice.version) = .ok again ∧
        again.requiresInstall = false ∧ again.version = "") ∧
      ∃ installed, Installs range toolchain survey installed ∧ installed.length ≤ 1 ∧
        ∀ other, Installs range toolchain survey other → other = installed := by
  refine ⟨?_, ?_⟩
  · intro hne
    obtain ⟨again, ha, hv⟩ := exists_advise_install h hne
    exact ⟨again, ha, requiresInstall_eq_false_iff.mpr hv, hv⟩
  · by_cases hv : advice.version = ""
    · have hrun : Installs range toolchain survey [] :=
        .done h (requiresInstall_eq_false_iff.mpr hv)
      exact ⟨[], hrun, by decide, fun other ho => ho.unique hrun⟩
    · obtain ⟨again, ha, hav⟩ := exists_advise_install h hv
      have hrun : Installs range toolchain survey [advice.version] :=
        .next h (requiresInstall_iff.mpr hv) (.done ha (requiresInstall_eq_false_iff.mpr hav))
      exact ⟨[advice.version], hrun, Nat.le_refl 1, fun other ho => ho.unique hrun⟩

/-- A manifest that asks for 1.20.3 while 1.19 is installed: 1.20.3 is installed, and that is all. -/
theorem advise_converges_after_1_20_3 :
    ∃ advice, advise .standard {} ⟨.seen "1.20.3", .seen "1.19"⟩ = .ok advice ∧
      advice.version = "1.20.3" ∧
      (∃ again, advise .standard {} ⟨.seen "1.20.3", .seen "1.20.3"⟩ = .ok again ∧
        again.requiresInstall = false ∧ again.version = "") ∧
      ∃ installed, Installs .standard {} ⟨.seen "1.20.3", .seen "1.19"⟩ installed ∧
        installed.length ≤ 1 := by
  have h : advise .standard {} ⟨.seen "1.20.3", .seen "1.19"⟩ =
      .ok (adviceOf .standard {} ⟨.seen "1.20.3", .seen "1.19"⟩ .manifestSupportedEnvLower) := rfl
  obtain ⟨hagain, installed, hrun, hlength, -⟩ := advise_converges h
  exact ⟨_, h, rfl, hagain (by decide), installed, hrun, hlength⟩

end Decision

end ToolchainChoice
