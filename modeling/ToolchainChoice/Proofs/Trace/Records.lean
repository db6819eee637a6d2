import ToolchainChoice.Proofs.Trace.Silence

/-!
# The log of a run

The log of steps that succeed is that of the steps one after another. This is also so for the
records of one level alone, which is what a reader of the log asks for. What all records of each step
satisfy, all records of the sequence satisfy, whether it succeeds or not.
-/
namespace ToolchainChoice.Traced

variable {α β : Type} {x : Traced α} {f : α → Traced β} {level : Log.Level}

theorem records_bind_of_ok {a : α} (h : x.result = .ok a) :
    (x >>= f).records = x.records ++ (f a).records := by
  unfold records
  rw [events_bind_of_ok h, List.filterMap_append]

/-- The records of one level. -/
def recordsAt (level : Log.Level) (x : Traced α) : List Log.Record :=
  x.records.filter fun r => r.level = level

theorem recordsAt_bind_of_ok {a : α} (h : x.result = .ok a) :
    (x >>= f).recordsAt level = x.recordsAt level ++ (f a).recordsAt level := by
  unfold recordsAt
  rw [records_bind_of_ok h, List.filter_append]

theorem recordsAt_pure (a : α) : (pure a : Traced α).recordsAt level = [] := rfl

theorem recordsAt_lift (result : Except Failure α) :
    (liftM result : Traced α).recordsAt level = [] := rfl

theorem recordsAt_log (source : Log.Source) (message : Symbols) :
    (log level source message).recordsAt level = [⟨level, source, message⟩] := by
  change ([⟨level, source, message⟩] : List Log.Record).filter _ = _
  rw [List.filter_cons_of_pos (by simp), List.filter_nil]

theorem recordsAt_log_of_ne {other : Log.Level} (h : other ≠ level) (source : Log.Source)
    (message : Symbols) : (log other source message).recordsAt level = [] := by
  change ([⟨other, source, message⟩] : List Log.Record).filter _ = _
  rw [List.filter_cons_of_neg (by simpa using h), List.filter_nil]

/-! ## What all records satisfy -/

variable {p : Log.Record → Prop}

/-- A run does nothing but log, even if it fails, and all its records satisfy `p`. -/
structure LogsOnly (p : Log.Record → Prop) (x : Traced α) : Prop where
  logged : ∀ event ∈ x.events, ∃ r, event = .logged r ∧ p r

theorem LogsOnly.silent (h : x.LogsOnly p) : x.Silent where
  not_printed text ht := by
    obtain ⟨r, hr, -⟩ := h.logged _ ht
    contradiction

theorem LogsOnly.of_mem {r : Log.Record} (h : x.LogsOnly p) (hr : r ∈ x.records) : p r := by
  obtain ⟨event, hevent, hsome⟩ := List.mem_filterMap.mp hr
  obtain ⟨r', rfl, hp⟩ := h.logged event hevent
  obtain rfl := Option.some.inj hsome
  exact hp

theorem logsOnly_of_events_eq_nil (h : x.events = []) : x.LogsOnly p where
  logged event hevent := by
    rw [h] at hevent
    contradiction

theorem logsOnly_pure (a : α) : (pure a : Traced α).LogsOnly p := logsOnly_of_events_eq_nil rfl

theorem logsOnly_lift (result : Except Failure α) : (liftM result : Traced α).LogsOnly p :=
  logsOnly_of_events_eq_nil rfl

theorem logsOnly_fail (e : Failure) : (fail e : Traced α).LogsOnly p :=
  logsOnly_of_events_eq_nil rfl

theorem logsOnly_log {source : Log.Source} {message : Symbols} (h : p ⟨level, source, message⟩) :
    (log level source message).LogsOnly p where
  logged event hevent := by
    obtain rfl := List.mem_singleton.mp hevent
    exact ⟨_, rfl, h⟩

theorem LogsOnly.bind (hx : x.LogsOnly p) (hf : ∀ a, (f a).LogsOnly p) : (x >>= f).LogsOnly p := by
  refine ⟨fun event hevent => ?_⟩
  cases h : x.result with
  | error e =>
    rw [events_bind_of_error h] at hevent
    exact hx.logged event hevent
  | ok a =>
    rw [events_bind_of_ok h] at hevent
    rcases List.mem_append.mp hevent with hevent | hevent
    · exact hx.logged event hevent
    · exact (hf a).logged event hevent

end ToolchainChoice.Traced
