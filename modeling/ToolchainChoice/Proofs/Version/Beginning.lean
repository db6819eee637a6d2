import ToolchainChoice.Proofs.Version.DottedNumbers

/-!
# How the text of a version begins

The text of a version does not begin with a hyphen, so on a command line it is never mistaken for an
option.
-/
namespace ToolchainChoice.Version

open Text (isBlank)

theorem isBlank_hyphen : isBlank '-' = false := by decide

namespace Written

theorem ofLower?_hyphen (cs : List Char) : ofLower? ('-' :: cs) = none := rfl

theorem ofText?_hyphen (cs : List Char) : ofText? ('-' :: cs) = none := by
  rw [ofText?, stripGo_cons isBlank_hyphen (by decide)]
  exact ofLower?_hyphen _

end Written

theorem head?_ne_hyphen {text : String} {v : Version} (h : read text = .ok v) :
    text.toList.head? ≠ some '-' := by
  intro hhead
  unfold read ofChars at h
  cases hcs : text.toList with
  | nil => rw [hcs] at hhead; contradiction
  | cons c cs =>
    rw [hcs] at h hhead
    obtain rfl : c = '-' := Option.some.inj hhead
    rw [Written.ofText?_hyphen] at h
    contradiction

end ToolchainChoice.Version
