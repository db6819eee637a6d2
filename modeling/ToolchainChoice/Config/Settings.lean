import ToolchainChoice.Decision.Advice
import ToolchainChoice.Range
import ToolchainChoice.Value.Shown

/-!
# Settings

What a configuration sets, and how a value is read as settings: the version of the format first,
then the three sections one after another, each with its entries in a fixed order. The first thing
that is wrong is what is reported. A section that is missing or counts as nothing leaves its
defaults, and entries that have no meaning are ignored.
-/
namespace ToolchainChoice.Config

structure Settings where
  /-- The version of the format as it was given; a number equal to one. -/
  version : Value := .int 1
  toolchain : Toolchain := {}
  executable : Symbols := "go"
  range : SupportedRange := .standard
  /-- The folder of the diagnostics archive. -/
  directory : Option Symbols := none
  deriving Inhabited

abbrev Entries := List (Value × Value)

def fail (problem : ConfigProblem) : Except Failure α := .error (.configuration problem)

/-- The entries of a section. -/
def sectionOf (store : Store) (data : Entries) (key : String) : Except Failure Entries :=
  match Value.get? data key with
  | none => .ok []
  | some v =>
    if store.isEmpty v then .ok []
    else
      match store.entries? v with
      | some entries => .ok entries
      | none => fail (.sectionNotMapping key)

def versionOf (store : Store) (data : Entries) : Except Failure Value :=
  match Value.get? data "version" with
  | none => .ok (.int 1)
  | some v => if v.isOne then .ok v else do fail (.unsupportedVersion (← store.plainText v))

/-- An entry of the toolchain section: a text that is not empty. -/
def nameOf (entries : Entries) (key fallback : String) : Except Failure Symbols :=
  match Value.get? entries key with
  | none => .ok fallback
  | some v =>
    match v.text? with
    | some s => if s = [] then fail (.fieldNotText key) else .ok s
    | none => fail (.fieldNotText key)

/-- A bound as it was written; whether it is one is a matter of the range. -/
def boundOf (store : Store) (entries : Entries) (key fallback : String) : Except Failure Value :=
  match Value.get? entries key with
  | none => .ok (.text fallback)
  | some v =>
    if v.text?.isSome then .ok v else do fail (.boundNotText key (← store.shownText v))

def rangeOf (store : Store) (entries : Entries) : Except Failure SupportedRange := do
  let min ← boundOf store entries "min" SupportedRange.defaultMin
  let max ← boundOf store entries "max" SupportedRange.defaultMax
  SupportedRange.ofValues store min max

def directoryOf (entries : Entries) : Except Failure (Option Symbols) :=
  match Value.get? entries "directory" with
  | none | some .null => .ok none
  | some v =>
    match v.text? with
    | some s => .ok (some s)
    | none => fail .directoryNotText

/-- The settings that the entries of a configuration give. -/
def Settings.ofEntries (store : Store) (data : Entries) : Except Failure Settings := do
  let version ← versionOf store data
  let toolchain ← sectionOf store data "toolchain"
  let name ← nameOf toolchain "name" "Go"
  let key ← nameOf toolchain "key" "go"
  let manifest ← nameOf toolchain "manifest" "go.mod"
  let executable ← nameOf toolchain "executable" "go"
  let range ← rangeOf store (← sectionOf store data "supported_range")
  let directory ← directoryOf (← sectionOf store data "diagnostics")
  return { version, toolchain := ⟨name, key, manifest⟩, executable, range, directory }

/-- The settings that a document gives. -/
def Settings.ofDocument (d : Document) : Except Failure Settings :=
  match d.store.entries? d.root with
  | some data => Settings.ofEntries d.store data
  | none => fail .notMapping

end ToolchainChoice.Config
