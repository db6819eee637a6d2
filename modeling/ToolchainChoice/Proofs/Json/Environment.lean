import ToolchainChoice.Proofs.CommandLine.Output
import ToolchainChoice.Proofs.Json.RoundTrip

/-!
# The environment as it is written

A JSON text on one line holds printable ASCII characters only, whatever the strings in it are. So the text
of an environment does, and it is read back as the object that was written. Environments with another
version or another key have other texts, if the keys have no halves of characters in them; of halves it is
known that a reader puts them together. Nothing else is assumed of the version or the key.
-/
namespace ToolchainChoice

namespace Json

open Number (hexDigits)
open Text (Symbol)

/-! ## Printable texts -/

def IsPrintable (cs : List Char) : Prop := ∀ c ∈ cs, ' ' ≤ c ∧ c ≤ '~'

instance (cs : List Char) : Decidable (IsPrintable cs) :=
  List.decidableBAll (fun c => ' ' ≤ c ∧ c ≤ '~') cs

variable {c : Char} {cs ds gap : List Char}

theorem isPrintable_nil : IsPrintable [] := List.forall_mem_nil _

theorem isPrintable_cons : IsPrintable (c :: cs) ↔ (' ' ≤ c ∧ c ≤ '~') ∧ IsPrintable cs :=
  List.forall_mem_cons

theorem isPrintable_append : IsPrintable (cs ++ ds) ↔ IsPrintable cs ∧ IsPrintable ds :=
  List.forall_mem_append

theorem isPrintable_hexDigits (width n : Nat) : IsPrintable (hexDigits width n) := by
  induction width generalizing n with
  | zero => exact isPrintable_nil
  | succ width ih =>
    have hdigit : ∀ k : Fin 16, ' ' ≤ Nat.digitChar k.val ∧ Nat.digitChar k.val ≤ '~' := by decide
    rw [hexDigits, isPrintable_append, isPrintable_cons]
    exact ⟨ih (n / 16), hdigit ⟨n % 16, Nat.mod_lt _ (by decide)⟩, isPrintable_nil⟩

theorem isPrintable_escapeUnit (unit : Nat) : IsPrintable (escapeUnit unit) :=
  isPrintable_cons.mpr ⟨by decide, isPrintable_cons.mpr ⟨by decide, isPrintable_hexDigits 4 unit⟩⟩

theorem isPrintable_escape (c : Char) : IsPrintable (escape c) := by
  unfold escape
  split_ifs with hquote hslash hfeed hreturn htab hform hback hprintable
  all_goals try decide
  · exact isPrintable_cons.mpr ⟨hprintable, isPrintable_nil⟩
  · intro d hd
    obtain ⟨unit, -, hunit⟩ := List.mem_flatMap.mp hd
    exact isPrintable_escapeUnit unit d hunit

theorem isPrintable_escapeSymbol (s : Symbol) : IsPrintable (escapeSymbol s) := by
  cases s with
  | char c => exact isPrintable_escape c
  | half h => exact isPrintable_escapeUnit h.code

theorem isPrintable_quote (text : Symbols) : IsPrintable (quote text) := by
  refine isPrintable_cons.mpr ⟨by decide, isPrintable_append.mpr ⟨?_, by decide⟩⟩
  intro d hd
  obtain ⟨s, -, hs⟩ := List.mem_flatMap.mp hd
  exact isPrintable_escapeSymbol s d hs

theorem isPrintable_of_isNumber (h : isNumber cs = true) : IsPrintable cs := by
  intro c hc
  have hchar := (hasNumberForm_of_isNumber h).all c hc
  simp only [isNumberChar, Bool.or_eq_true, beq_iff_eq] at hchar
  rcases hchar with ((((hdigit | rfl) | rfl) | rfl) | rfl) | rfl
  · obtain ⟨hleast, hgreatest⟩ := Bool.and_eq_true_iff.mp hdigit
    exact ⟨UInt32.le_trans (by decide) (of_decide_eq_true hleast),
      UInt32.le_trans (of_decide_eq_true hgreatest) (by decide)⟩
  all_goals decide

theorem isPrintable_commas {css : List (List Char)} (hgap : IsPrintable gap)
    (h : ∀ cs ∈ css, IsPrintable cs) : IsPrintable (commas gap css) := by
  induction css with
  | nil => exact isPrintable_nil
  | cons cs css ih =>
    have h := List.forall_mem_cons.mp h
    cases css with
    | nil => exact h.1
    | cons cs' css =>
      have hrest := isPrintable_append.mpr ⟨hgap, ih h.2⟩
      exact isPrintable_append.mpr ⟨h.1, isPrintable_cons.mpr ⟨by decide, hrest⟩⟩

theorem HasLiterals.isPrintable_inline {j : Json} (h : j.HasLiterals) : IsPrintable (inline j) := by
  induction h with
  | null => decide
  | bool b => cases b <;> decide
  | number h => exact isPrintable_of_isNumber h
  | string text => exact isPrintable_quote _
  | @array items h ih =>
    rw [inline, inlineItems_eq]
    have hitems : IsPrintable (commas [' '] (items.map inline)) :=
      isPrintable_commas (by decide) (List.forall_mem_map.mpr ih)
    exact isPrintable_cons.mpr ⟨by decide, isPrintable_append.mpr ⟨hitems, by decide⟩⟩
  | @object members h ih =>
    rw [inline, inlineMembers_eq]
    have hmember : ∀ member ∈ members, IsPrintable (memberText inline member) := fun member hmem =>
      isPrintable_append.mpr ⟨isPrintable_quote _,
        isPrintable_cons.mpr ⟨by decide, isPrintable_cons.mpr ⟨by decide, ih member hmem⟩⟩⟩
    have hmembers : IsPrintable (commas [' '] (members.map (memberText inline))) :=
      isPrintable_commas (by decide) (List.forall_mem_map.mpr hmember)
    exact isPrintable_cons.mpr ⟨by decide, isPrintable_append.mpr ⟨hmembers, by decide⟩⟩

end Json

open Json (IsPrintable)

variable {version version' : String} {key : Symbols} {text : String}

/-- A text shows a version under a key. It is one object from its first character to its last, all on
one line, and read as JSON it has the key for its only member; what is under the key is empty if the
version is, and holds the version otherwise. A reader puts halves of characters together. -/
structure ShowsVersion (key : Symbols) (version text : String) : Prop where
  read : Json.decode? text = some (.object
    [(key.paired, .object (if version = "" then [] else [("version", .string version)]))])
  printable : IsPrintable text.toList
  opens : text.toList.head? = some '\x7b'
  closes : text.toList.getLast? = some '\x7d'

theorem hasLiterals_environment (version : String) (key : Symbols) :
    (environment version key).HasLiterals := by
  have hversion : ∀ member ∈ if version = "" then [] else [(("version" : Symbols), Json.string version)],
      member.2.HasLiterals := by
    split
    · exact List.forall_mem_nil _
    · exact List.forall_mem_cons.mpr ⟨.string version, List.forall_mem_nil _⟩
  exact .object (List.forall_mem_cons.mpr ⟨.object hversion, List.forall_mem_nil _⟩)

theorem paired_environment (version : String) (key : Symbols) :
    (environment version key).paired = environment version key.paired := by
  have hword : Symbols.paired "version" = "version" := Symbols.paired_ofString "version"
  unfold environment
  by_cases h : version = ""
  · simp only [if_pos h, Json.paired, Json.pairedMembers]
  · simp only [if_neg h, Json.paired, Json.pairedMembers, hword, Symbols.paired_ofString]

theorem environment_shows (version : String) (key : Symbols) :
    ShowsVersion key version (environment version key).encode where
  read := by
    rw [Json.decode?_encode (hasLiterals_environment version key), paired_environment]
    rfl
  printable := by
    rw [Json.encode, String.toList_ofList]
    exact (hasLiterals_environment version key).isPrintable_inline
  opens := by
    rw [Json.encode, String.toList_ofList]
    rfl
  closes := by
    rw [Json.encode, String.toList_ofList, environment, Json.inline]
    exact List.getLast?_concat

/-- The empty version and all others are told apart by the number of the members. -/
theorem ShowsVersion.version_eq (h : ShowsVersion key version text)
    (h' : ShowsVersion key version' text) : version = version' := by
  have hobject := Option.some.inj (h.read.symm.trans h'.read)
  have hmembers := Json.object.inj (Prod.mk.inj (List.cons.inj (Json.object.inj hobject)).1).2
  by_cases hempty : version = "" <;> by_cases hempty' : version' = ""
  · rw [hempty, hempty']
  · rw [if_pos hempty, if_neg hempty'] at hmembers
    contradiction
  · rw [if_neg hempty, if_pos hempty'] at hmembers
    contradiction
  · rw [if_neg hempty, if_neg hempty'] at hmembers
    exact Symbols.ofString_injective (Json.string.inj (Prod.mk.inj (List.cons.inj hmembers).1).2)

theorem output_report_working (version : String) (key : Symbols) :
    (report .working version key).output = (environment version key).encode := by
  rw [report_working]
  simp [Traced.output, String.join]

/-- **The report.** On a stream that works the whole environment is written, as printable ASCII. Read as
JSON it is one object with the key for its only member; what is under the key is empty if the version is,
and holds the version otherwise. So no two environments are written alike. -/
theorem report_round_trips (version key : String) :
    (report .working version key).result = .ok true ∧
      IsPrintable (report .working version key).output.toList ∧
      Json.decode? (report .working version key).output =
        some (.object [(key, .object (if version = "" then [] else [("version", .string version)]))]) ∧
      ∀ version' key' : String,
        (report .working version' key').output = (report .working version key).output →
        version' = version ∧ key' = key := by
  have hshows : ∀ version key : String,
      ShowsVersion key version (report .working version key).output := fun version key => by
    rw [output_report_working]
    exact environment_shows version key
  have hread := (hshows version key).read
  rw [Symbols.paired_ofString] at hread
  refine ⟨rfl, (hshows version key).printable, hread, fun version' key' h => ?_⟩
  have hread' := (hshows version' key').read
  rw [Symbols.paired_ofString, h, hread] at hread'
  have hkey : key = key' := Symbols.ofString_injective
    (Prod.mk.inj (List.cons.inj (Json.object.inj (Option.some.inj hread'))).1).1
  subst hkey
  have hshows' := hshows version' key
  rw [h] at hshows'
  exact ⟨hshows'.version_eq (hshows version key), rfl⟩

end ToolchainChoice
