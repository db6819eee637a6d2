import ToolchainChoice.Failure
import ToolchainChoice.Log

/-!
# Traces

What an operation does besides giving a result: it keeps a log and prints. The events of a run are
kept in order whether the run succeeds or fails, and a step that follows a failure does nothing.
`Traced.records` and `Traced.output` are the two views of a run.
-/
namespace ToolchainChoice

inductive Event where
  | logged (record : Log.Record)
  | printed (text : String)
  deriving DecidableEq, Repr

structure Traced (α : Type) where
  events : List Event
  result : Except Failure α

namespace Traced

variable {α β : Type}

def ofExcept (result : Except Failure α) : Traced α := ⟨[], result⟩

def fail (e : Failure) : Traced α := ofExcept (.error e)

/-- One step after another. -/
def andThen (x : Traced α) (f : α → Traced β) : Traced β :=
  match x.result with
  | .error e => ⟨x.events, .error e⟩
  | .ok a => ⟨x.events ++ (f a).events, (f a).result⟩

instance : Monad Traced where
  pure a := ofExcept (.ok a)
  bind := andThen

instance : MonadLift (Except Failure) Traced := ⟨ofExcept⟩

def log (level : Log.Level) (source : Log.Source) (message : Symbols) : Traced Unit :=
  ⟨[.logged ⟨level, source, message⟩], .ok ()⟩

def debug : Log.Source → Symbols → Traced Unit := log .debug

def print (text : String) : Traced Unit := ⟨[.printed text], .ok ()⟩

/-- The log of a run. -/
def records (x : Traced α) : List Log.Record :=
  x.events.filterMap fun
    | .logged record => some record
    | .printed _ => none

/-- All that a run prints. -/
def output (x : Traced α) : String :=
  String.join <| x.events.filterMap fun
    | .logged _ => none
    | .printed text => some text

theorem andThen_ok {x : Traced α} {a : α} (h : x.result = .ok a) (f : α → Traced β) :
    x.andThen f = ⟨x.events ++ (f a).events, (f a).result⟩ := by simp [andThen, h]

theorem andThen_error {x : Traced α} {e : Failure} (h : x.result = .error e) (f : α → Traced β) :
    x.andThen f = ⟨x.events, .error e⟩ := by simp [andThen, h]

instance : LawfulMonad Traced := LawfulMonad.mk' Traced
  (by
    intro α x
    obtain ⟨events, result⟩ := x
    cases result <;> simp [Functor.map, andThen, ofExcept])
  (by intro α β a f; simp [bind, pure, andThen, ofExcept])
  (by
    intro α β γ x f g
    obtain ⟨events, result⟩ := x
    cases result with
    | error e => simp [bind, andThen]
    | ok a => cases h : (f a).result <;> simp [bind, andThen, h])

end Traced

end ToolchainChoice
