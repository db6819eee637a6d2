import ToolchainChoice.Yaml.Fault

/-!
# How reading a text ends

Reading ends with what is read, with a fault of the text, or with one of a few failures of other kinds. A
step of reading is described by what holds of its result if it has one; that its failure is one of these
kinds is part of the description. Steps in sequence are described by the descriptions of the steps.
-/
namespace ToolchainChoice.Yaml

/-- The failures that reading a text can end with. -/
inductive IsReadingFailure : Failure → Prop
  | notUtf8 : IsReadingFailure .notUtf8
  | tooDeep : IsReadingFailure .tooDeep
  | noSuchCharacter (code : Nat) : IsReadingFailure (.noSuchCharacter code)
  | numberTooLong : IsReadingFailure .numberTooLong
  | numberTooLarge : IsReadingFailure .numberTooLarge
  | notANumber : IsReadingFailure .notANumber
  | emptyNumber : IsReadingFailure .emptyNumber
  | notATruthValue : IsReadingFailure .notATruthValue
  | notATimeStamp : IsReadingFailure .notATimeStamp
  | noSuchMoment : IsReadingFailure .noSuchMoment
  | notAText : IsReadingFailure .notAText

/-- The fault is one of the text, or one of these failures. -/
def Fault.IsRegular (fault : Fault) : Prop := ∀ f, fault = .failure f → IsReadingFailure f

/-- The result is as `post` says, or else the fault is one that reading can end with. -/
def Ends (post : α → Prop) : Result α → Prop
  | .ok a => post a
  | .error fault => fault.IsRegular

variable {α β σ : Type} {post : α → Prop} {post' : β → Prop} {x : Result α} {reason : String}

/-! ## Steps -/

theorem isRegular_failure {f : Failure} (h : IsReadingFailure f) : Fault.IsRegular (.failure f) := by
  intro g hg
  obtain rfl := Fault.failure.inj hg
  exact h

theorem ends_ok {a : α} (h : post a) : Ends post (.ok a) := h

theorem ends_pure {a : α} (h : post a) : Ends post (pure a) := h

theorem ends_reject : Ends post (reject reason) := nofun

theorem ends_failWith {f : Failure} (h : IsReadingFailure f) : Ends post (failWith f) :=
  isRegular_failure h

theorem ends_unfinished : Ends post (.error (.unfinished reason)) := nofun

theorem ends_rejectAt {cs : List Char} : Ends post (rejectAt cs reason) := by
  unfold rejectAt
  split
  · exact ends_unfinished
  · exact ends_reject

/-! ## Steps in sequence -/

theorem ends_ite {c : Prop} [Decidable c] {y : Result α} (hx : Ends post x) (hy : Ends post y) :
    Ends post (if c then x else y) := by
  split
  · exact hx
  · exact hy

namespace Ends

theorem mono (h : Ends post x) {q : α → Prop} (hq : ∀ a, post a → q a) : Ends q x := by
  cases x with
  | ok a => exact hq a h
  | error fault => exact h

theorem bind {f : α → Result β} (hx : Ends post x) (hf : ∀ a, post a → Ends post' (f a)) :
    Ends post' (x >>= f) := by
  cases x with
  | ok a => exact hf a hx
  | error fault => exact hx

theorem map {f : α → β} (hx : Ends post x) (hf : ∀ a, post a → post' (f a)) :
    Ends post' (x.map f) := by
  cases x with
  | ok a => exact hf a hx
  | error fault => exact hx

end Ends

/-- Nothing is asked of the result. -/
abbrev EndsSomehow (x : Result α) : Prop := Ends (fun _ => True) x

theorem endsSomehow_ok {a : α} : EndsSomehow (.ok a : Result α) := trivial

theorem endsSomehow_bind {f : α → Result β} (hx : EndsSomehow x) (hf : ∀ a, EndsSomehow (f a)) :
    EndsSomehow (x >>= f) :=
  hx.bind fun a _ => hf a

theorem endsSomehow_map {f : α → β} (hx : EndsSomehow x) : EndsSomehow (x.map f) :=
  hx.map fun _ _ => trivial

theorem endsSomehow_mapM {f : α → Result β} (h : ∀ a, EndsSomehow (f a)) (items : List α) :
    EndsSomehow (items.mapM f) := by
  induction items with
  | nil => exact ends_pure trivial
  | cons a items ih =>
    rw [List.mapM_cons]
    exact endsSomehow_bind (h a) fun b => endsSomehow_bind ih fun bs => ends_pure trivial

theorem endsSomehow_foldlM {f : σ → α → Result σ} (h : ∀ s a, EndsSomehow (f s a)) (s : σ)
    (items : List α) : EndsSomehow (items.foldlM f s) := by
  induction items generalizing s with
  | nil => exact ends_pure trivial
  | cons a items ih =>
    rw [List.foldlM_cons]
    exact endsSomehow_bind (h s a) ih

/-! ## Steps with a state -/

/-- The step keeps what is asked of the state. -/
def Keeps (inv : σ → Prop) (m : StateT σ Result α) : Prop :=
  ∀ s, inv s → Ends (fun done => inv done.2) (m s)

variable {inv : σ → Prop} {m : StateT σ Result α}

theorem keeps_pure {a : α} : Keeps inv (pure a : StateT σ Result α) := fun _ hs => hs

theorem keeps_lift (h : EndsSomehow x) : Keeps inv (liftM x : StateT σ Result α) := by
  intro s hs
  exact Ends.bind h fun a _ => ends_pure hs

theorem keeps_get : Keeps inv (get : StateT σ Result σ) := fun _ hs => hs

theorem keeps_set {s : σ} (h : inv s) : Keeps inv (set s : StateT σ Result PUnit) := fun _ _ => h

theorem keeps_modify {f : σ → σ} (h : ∀ s, inv s → inv (f s)) :
    Keeps inv (modify f : StateT σ Result PUnit) := h

theorem keeps_ite {c : Prop} [Decidable c] {m n : StateT σ Result α} (hm : Keeps inv m)
    (hn : Keeps inv n) : Keeps inv (if c then m else n) := by
  split
  · exact hm
  · exact hn

theorem Keeps.bind {f : α → StateT σ Result β} (hm : Keeps inv m) (hf : ∀ a, Keeps inv (f a)) :
    Keeps inv (m >>= f) :=
  fun s hs => Ends.bind (hm s hs) fun done hdone => hf done.1 done.2 hdone

/-- What follows a look at the state may rely on what is kept. -/
theorem keeps_get_bind {f : σ → StateT σ Result β}
    (h : ∀ s, inv s → Ends (fun done => inv done.2) (f s s)) : Keeps inv (get >>= f) := h

/-- What follows a step without a state, from one state on. -/
theorem Ends.lift_bind {q : β × σ → Prop} {f : α → StateT σ Result β} {s : σ} (hx : Ends post x)
    (hf : ∀ a, post a → Ends q (f a s)) : Ends q ((liftM x >>= f : StateT σ Result β) s) := by
  cases x with
  | ok a => exact hf a hx
  | error fault => exact hx

theorem keeps_mapM {f : α → StateT σ Result β} (h : ∀ a, Keeps inv (f a)) (items : List α) :
    Keeps inv (items.mapM f) := by
  induction items with
  | nil => exact keeps_pure
  | cons a items ih =>
    rw [List.mapM_cons]
    exact (h a).bind fun b => ih.bind fun bs => keeps_pure

end ToolchainChoice.Yaml
