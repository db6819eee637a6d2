import ToolchainChoice.Trace

/-!
# Runs that print nothing

Almost every step of a run only keeps the log. A step that is silent adds nothing to the output,
whether it succeeds or fails, so the output of a sequence that begins with silent steps is that of
what follows them, or nothing at all if one of them fails.
-/
namespace ToolchainChoice.Traced

variable {α β : Type} {x : Traced α} {f : α → Traced β} {b : β}

/-- Nothing is printed in the run, even if it fails. -/
structure Silent (x : Traced α) : Prop where
  not_printed : ∀ text, Event.printed text ∉ x.events

theorem silent_of_events_eq_nil (h : x.events = []) : x.Silent where
  not_printed text ht := by
    rw [h] at ht
    contradiction

theorem silent_pure (a : α) : (pure a : Traced α).Silent := silent_of_events_eq_nil rfl

theorem silent_lift (result : Except Failure α) : (liftM result : Traced α).Silent :=
  silent_of_events_eq_nil rfl

theorem silent_fail (e : Failure) : (fail e : Traced α).Silent := silent_of_events_eq_nil rfl

/-- Whether a run fails in the end makes no difference to what it has printed. -/
theorem Silent.failing (h : x.Silent) (e : Failure) : (⟨x.events, .error e⟩ : Traced β).Silent where
  not_printed := h.not_printed

theorem silent_log (level : Log.Level) (source : Log.Source) (message : Symbols) :
    (log level source message).Silent where
  not_printed text ht := by simp [log] at ht

theorem events_bind_of_error {e : Failure} (h : x.result = .error e) :
    (x >>= f).events = x.events := by
  change (x.andThen f).events = x.events
  rw [andThen_error h]

theorem events_bind_of_ok {a : α} (h : x.result = .ok a) :
    (x >>= f).events = x.events ++ (f a).events := by
  change (x.andThen f).events = x.events ++ (f a).events
  rw [andThen_ok h]

theorem Silent.bind (hx : x.Silent) (hf : ∀ a, (f a).Silent) : (x >>= f).Silent := by
  refine ⟨fun text ht => ?_⟩
  cases h : x.result with
  | error e =>
    rw [events_bind_of_error h] at ht
    exact hx.not_printed text ht
  | ok a =>
    rw [events_bind_of_ok h] at ht
    rcases List.mem_append.mp ht with ht | ht
    · exact hx.not_printed text ht
    · exact (hf a).not_printed text ht

theorem result_bind_eq_ok_iff :
    (x >>= f).result = .ok b ↔ ∃ a, x.result = .ok a ∧ (f a).result = .ok b := by
  change (x.andThen f).result = .ok b ↔ _
  cases h : x.result with
  | error e => simp [andThen_error h]
  | ok a => simp [andThen_ok h]

theorem result_lift (result : Except Failure α) : (liftM result : Traced α).result = result := rfl

theorem result_bind_of_ok {a : α} (h : x.result = .ok a) : (x >>= f).result = (f a).result := by
  change (x.andThen f).result = (f a).result
  rw [andThen_ok h]

theorem result_bind_of_error {e : Failure} (h : x.result = .error e) :
    (x >>= f).result = .error e := by
  change (x.andThen f).result = .error e
  rw [andThen_error h]

/-- A last step that only gives a form to the result. -/
theorem result_bind_pure (x : Traced α) (g : α → β) :
    (x >>= fun a => pure (g a)).result = x.result.map g := by
  change (x.andThen fun a => pure (g a)).result = _
  cases h : x.result with
  | error e => simp [andThen_error h, Except.map]
  | ok a =>
    rw [andThen_ok h]
    rfl

/-! ## Output -/

theorem Silent.output_eq (h : x.Silent) : x.output = "" := by
  refine congrArg String.join (List.filterMap_eq_nil_iff.mpr fun event he => ?_)
  cases event with
  | logged record => rfl
  | printed text => exact absurd he (h.not_printed text)

theorem output_bind_of_ok {a : α} (h : x.result = .ok a) :
    (x >>= f).output = x.output ++ (f a).output := by
  unfold output
  rw [events_bind_of_ok h, List.filterMap_append, String.join_append]

theorem output_bind_of_error {e : Failure} (h : x.result = .error e) :
    (x >>= f).output = x.output := by
  unfold output
  rw [events_bind_of_error h]

/-- A silent step that succeeds leaves the output to what follows. -/
theorem Silent.output_bind {a : α} (hx : x.Silent) (h : x.result = .ok a) :
    (x >>= f).output = (f a).output := by
  rw [output_bind_of_ok h, hx.output_eq, String.empty_append]

/-- What is printed, if anything is, satisfies `p`. -/
def Prints (p : String → Prop) (x : Traced α) : Prop := x.output = "" ∨ p x.output

theorem Silent.prints {p : String → Prop} (h : x.Silent) : x.Prints p := .inl h.output_eq

/-- All that a run shows besides its log. -/
def shown (x : Traced α) : Except Failure α × String := (x.result, x.output)

/-- A silent step that succeeds shows nothing. -/
theorem Silent.shown_bind {a : α} (hx : x.Silent) (h : x.result = .ok a) :
    (x >>= f).shown = (f a).shown :=
  Prod.ext (result_bind_of_ok h) (hx.output_bind h)

theorem Silent.shown_bind_of_error {e : Failure} (hx : x.Silent) (h : x.result = .error e) :
    (x >>= f).shown = (.error e, "") := by
  refine Prod.ext ?_ ((output_bind_of_error h).trans hx.output_eq)
  change (x.andThen f).result = .error e
  rw [andThen_error h]

/-- A sequence that begins with a silent step fails there and shows nothing, or shows what follows. -/
theorem Silent.shown_bind_cases (hx : x.Silent) (f : α → Traced β) :
    (∃ e, (x >>= f).shown = (.error e, "")) ∨
      ∃ a, x.result = .ok a ∧ (x >>= f).shown = (f a).shown := by
  cases h : x.result with
  | error e => exact .inl ⟨e, hx.shown_bind_of_error h⟩
  | ok a => exact .inr ⟨a, rfl, hx.shown_bind h⟩

/-- What is silent may follow without a change of the output. -/
theorem output_bind_of_silent (hf : ∀ a, (f a).Silent) : (x >>= f).output = x.output := by
  cases h : x.result with
  | error e => exact output_bind_of_error h
  | ok a => rw [output_bind_of_ok h, (hf a).output_eq, String.append_empty]

theorem Prints.bind_silent {p : String → Prop} (hx : x.Prints p) (hf : ∀ a, (f a).Silent) :
    (x >>= f).Prints p := by
  unfold Prints
  rw [output_bind_of_silent hf]
  exact hx

end ToolchainChoice.Traced
