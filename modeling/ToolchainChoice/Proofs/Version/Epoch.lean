import ToolchainChoice.Proofs.Version.Characters
import ToolchainChoice.Proofs.Version.DottedNumbers
import ToolchainChoice.Proofs.Version.Texts

/-!
# Versions without an epoch

An epoch is set off by an exclamation mark, so a version that is written without that mark has the
epoch zero. Nothing that is done to a text before its parts are read brings in such a mark.
-/
namespace ToolchainChoice.Version

open Text (strip stripStart stripEnd)

variable {c : Char} {cs : List Char}

theorem mem_of_mem_stripEnd (h : c ∈ stripEnd cs) : c ∈ cs := by
  induction cs with
  | nil => exact h
  | cons d ds ih =>
    rw [stripEnd] at h
    split at h
    · split at h
      · contradiction
      · rw [List.mem_singleton.mp h]
        exact List.mem_cons_self
    · rename_i e es hends
      rw [hends] at ih
      rcases List.mem_cons.mp h with rfl | h
      · exact List.mem_cons_self
      · exact List.mem_cons_of_mem d (ih h)

theorem mem_of_mem_strip (h : c ∈ strip cs) : c ∈ cs :=
  (List.dropWhile_sublist _).subset (mem_of_mem_stripEnd h)

/-- No letter has the exclamation mark for its lower case. -/
theorem eq_mark_of_toLower (h : c.toLower = '!') : c = '!' := by
  have hlow : c.toLower.toNat = 33 := congrArg Char.toNat h
  unfold Char.toLower at hlow h
  split at hlow
  · rename_i hupper
    have hle : c.toNat ≤ 90 := UInt32.le_iff_toNat_le.mp hupper.2
    have hge : 65 ≤ c.toNat := UInt32.le_iff_toNat_le.mp hupper.1
    have hsum : (c.val + ('a'.val - 'A'.val)).toNat = c.toNat + 32 := by
      show (c.toNat + 32) % 4294967296 = c.toNat + 32
      omega
    have hval : (c.val + ('a'.val - 'A'.val)).toNat = 33 := hlow
    omega
  · rename_i hupper
    rwa [dif_neg hupper] at h

namespace Written

theorem mem_of_mem_skipGo (h : c ∈ skipGo cs) : c ∈ cs := by
  rcases skipGo_cases cs with hsame | hcons
  · rwa [hsame] at h
  · rw [hcons]
    exact List.mem_cons_of_mem _ (List.mem_cons_of_mem _ h)

theorem mem_of_mem_skipV (h : c ∈ skipV cs) : c ∈ cs := by
  unfold skipV at h
  split at h
  · exact List.mem_cons_of_mem _ h
  · exact h

theorem epoch_eq_nil_of_ofLower? {w : Written} (h : ofLower? cs = some w) (hmark : '!' ∉ cs) :
    Parts.epoch w = [] := by
  unfold ofLower? at h
  rw [epoch_of_notMem hmark] at h
  dsimp only at h
  split at h
  · split at h
    · contradiction
    · obtain ⟨locals, -, rfl⟩ := Option.map_eq_some_iff.mp h
      rfl
  · contradiction

theorem epoch_eq_nil_of_ofText? {w : Written} (h : ofText? cs = some w) (hmark : '!' ∉ cs) :
    Parts.epoch w = [] := by
  apply epoch_eq_nil_of_ofLower? h
  intro hmem
  obtain ⟨c, hc, hlower⟩ := List.mem_map.mp (mem_of_mem_skipV hmem)
  obtain rfl := eq_mark_of_toLower hlower
  exact hmark (mem_of_mem_strip (mem_of_mem_skipGo (mem_of_mem_strip hc)))

end Written

/-- A version that is written without an exclamation mark has no epoch. -/
theorem epoch_eq_zero_of_read {text : String} {v : Version} (h : read text = .ok v)
    (hmark : '!' ∉ text.toList) : v.epoch = 0 := by
  unfold read ofChars at h
  split at h
  · contradiction
  · rename_i w hw
    unfold ofWritten at h
    split at h
    · obtain rfl := Except.ok.inj h
      show Number.digitsValue (Parts.epoch w) = 0
      rw [Written.epoch_eq_nil_of_ofText? hw hmark]
      rfl
    · contradiction

end ToolchainChoice.Version
