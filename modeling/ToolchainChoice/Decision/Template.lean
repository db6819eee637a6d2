import ToolchainChoice.Decision.Code
import ToolchainChoice.Text.Symbol

/-!
# Messages and actions of the diagnostic codes

Every code has an action, the target to install, and a message. A message is a sequence of fixed
texts and slots, so that what fills a slot is never looked at again.
-/
namespace ToolchainChoice.Decision

/-- Which version is to be installed. -/
inductive Target where
  | nothing
  | least
  | greatest
  | declared
  deriving DecidableEq, Repr

/-- What a message can mention. -/
inductive Slot where
  /-- The display name of the toolchain. -/
  | name
  /-- The name of the manifest file. -/
  | manifest
  /-- The version declared by the manifest. -/
  | declared
  /-- The installed version. -/
  | installed
  /-- The least supported version. -/
  | least
  /-- The greatest supported version. -/
  | greatest
  deriving DecidableEq, Repr

inductive Fragment where
  | fixed (text : String)
  | slot (s : Slot)
  deriving DecidableEq, Repr

abbrev Template := List Fragment

namespace Template

def render (fill : Slot → Symbols) (t : Template) : Symbols :=
  t.flatMap fun
    | .fixed text => (text : Symbols)
    | .slot s => fill s

/-- The word for a slot in a template that is shown unfilled. -/
def placeholder : Slot → String
  | .name => "\x7bname\x7d"
  | .manifest => "\x7bmanifest\x7d"
  | .declared => "\x7bmod\x7d"
  | .installed => "\x7benv\x7d"
  | .least => "\x7bmin\x7d"
  | .greatest => "\x7bmax\x7d"

/-- The template with a placeholder in every slot. -/
def unfilled (t : Template) : Symbols := t.render fun s => placeholder s

/-- The name of the manifest file between grave accents. -/
def theManifest : Template := [.fixed "`", .slot .manifest, .fixed "` file"]

def theRange : Template :=
  [.fixed "supported range (", .slot .least, .fixed "-", .slot .greatest, .fixed ")"]

/-- The version found in the manifest file, as the subject of a sentence. -/
def theDeclared : Template :=
  [.fixed "The version of ", .slot .name, .fixed " found in the "] ++ theManifest ++
    [.fixed " (", .slot .declared, .fixed ")"]

/-- The installed version, as the subject of a sentence. -/
def theInstalled : Template :=
  [.fixed "The version of ", .slot .name, .fixed " installed in the environment (",
   .slot .installed, .fixed ")"]

def declaredAbove : Template := theDeclared ++ [.fixed " is above the "] ++ theRange ++ [.fixed ". "]
def declaredBelow : Template := theDeclared ++ [.fixed " is below the "] ++ theRange ++ [.fixed ". "]

def installedOutside : Template :=
  theInstalled ++ [.fixed " is outside of the "] ++ theRange ++ [.fixed ". "]

def noneInstalled : Template := [.fixed "No version of ", .slot .name, .fixed " installed. "]

def noManifest : Template := [.fixed "No "] ++ theManifest ++ [.fixed " found. "]

def requestGreatest : Template :=
  [.fixed "Requesting the maximum supported version of ", .slot .name, .fixed " (",
   .slot .greatest, .fixed ")."]

def requestLeast : Template :=
  [.fixed "Requesting the minimum supported version of ", .slot .name, .fixed " (", .slot .least,
   .fixed ")."]

def requestDeclared : Template :=
  [.fixed "Requesting the version of ", .slot .name, .fixed " from the "] ++ theManifest ++
    [.fixed " (", .slot .declared, .fixed ")."]

def requestNothing : Template :=
  [.fixed "Not requesting any version of ", .slot .name, .fixed "."]

def highEnough : Template :=
  theInstalled ++ [.fixed " is supported and is high enough for the version found in the "] ++
    theManifest ++ [.fixed " (", .slot .declared, .fixed "). "]

end Template

open Template

/-- The message of a code. -/
def Code.template : Code → Template
  | .noManifestNoEnv =>
    [.fixed "No version of ", .slot .name, .fixed " installed and no "] ++ theManifest ++
      [.fixed " found. "] ++ requestGreatest
  | .noManifestEnvBelow => noManifest ++ installedOutside ++ requestGreatest
  | .noManifestEnvAbove => noManifest ++ installedOutside ++ requestGreatest
  | .noManifestEnvSupported =>
    noManifest ++ [.fixed "Version ", .slot .installed,
      .fixed " installed in the environment is supported. "] ++ requestNothing
  | .manifestAboveNoEnv => declaredAbove ++ noneInstalled ++ requestGreatest
  | .manifestAboveEnvAbove =>
    declaredAbove ++ theInstalled ++ [.fixed " is above the "] ++ theRange ++ [.fixed ". "] ++
      requestNothing
  | .manifestAboveEnvBelow =>
    declaredAbove ++ theInstalled ++ [.fixed " is below the "] ++ theRange ++ [.fixed ". "] ++
      requestGreatest
  | .manifestAboveEnvBelowMax =>
    declaredAbove ++ theInstalled ++ [.fixed " is below the maximum supported version (",
      .slot .greatest, .fixed "). "] ++ requestGreatest
  | .manifestAboveEnvAtMax =>
    declaredAbove ++ theInstalled ++ [.fixed " is the maximum supported version (",
      .slot .greatest, .fixed "). "] ++ requestNothing
  | .manifestBelowNoEnv => declaredBelow ++ noneInstalled ++ requestLeast
  | .manifestBelowEnvUnsupported => declaredBelow ++ installedOutside ++ requestLeast
  | .manifestBelowEnvSupported => highEnough ++ requestNothing
  | .manifestSupportedNoEnv =>
    noneInstalled ++ [.fixed "Requesting the version of ", .slot .name, .fixed " found in the "] ++
      theManifest ++ [.fixed " (", .slot .declared, .fixed ")."]
  | .manifestSupportedEnvUnsupported => installedOutside ++ requestDeclared
  | .manifestSupportedEnvLower =>
    theInstalled ++ [.fixed " is lower than the version found in the "] ++ theManifest ++
      [.fixed " (", .slot .declared, .fixed "). "] ++ requestDeclared
  | .manifestSupportedEnvHighEnough => highEnough ++ requestNothing

/-- The action of a code. -/
def Code.target : Code → Target
  | .noManifestNoEnv | .noManifestEnvBelow | .noManifestEnvAbove | .manifestAboveNoEnv
  | .manifestAboveEnvBelow | .manifestAboveEnvBelowMax => .greatest
  | .manifestBelowNoEnv | .manifestBelowEnvUnsupported => .least
  | .manifestSupportedNoEnv | .manifestSupportedEnvUnsupported
  | .manifestSupportedEnvLower => .declared
  | .noManifestEnvSupported | .manifestAboveEnvAbove | .manifestAboveEnvAtMax
  | .manifestBelowEnvSupported | .manifestSupportedEnvHighEnough => .nothing

end ToolchainChoice.Decision
