import ToolchainChoice.Proofs.CommandLine.AllOrNothing
import ToolchainChoice.Proofs.CommandLine.Thinning

/-!
# Verbosity

How much of the log is shown has no part in what a run does: two command lines that ask for the same apart
from it end alike, print the same and leave the same files behind, even if they fail.

A flag for it can be put before a command line with a command, and be left out wherever it stands. Behind
the name of the command it would be a mistake, and it is never taken for the argument of an option. Nothing
is assumed of the other words of the command line.
-/
namespace ToolchainChoice.CommandLine

open Files (Path Disk)

variable {σ : Type} {g : Grammar σ} {state next : σ} {ws left : List (Word σ)}

/-! ## The program -/

/-- What is asked for, apart from how much of the log is shown. -/
def Options.task (o : Options) : Option (Argument Path) × Argument Path × Option Command :=
  (o.config, o.root, o.command)

/-- The names of the flags for how much of the log is shown. -/
def flagWords : List String := ["--verbose", "-v", "--quiet", "-q"]

theorem programGrammar_respects : programGrammar.Respects Options.task := by
  intro o ho
  simp only [programGrammar, List.mem_cons, List.not_mem_nil, or_false] at ho
  rcases ho with rfl | rfl | rfl | rfl | rfl | rfl
  · exact respects_of_showing rfl
  · exact respects_of_showing rfl
  · refine respects_of_flag rfl fun state state' hview => ?_
    exact hview
  · refine respects_of_flag rfl fun state state' hview => ?_
    exact hview
  · refine respects_of_argument rfl fun a state state' hview => ?_
    obtain ⟨-, hrest⟩ := Prod.mk.inj hview
    exact Prod.ext rfl hrest
  · refine respects_of_argument rfl fun a state state' hview => ?_
    obtain ⟨hconfig, hrest⟩ := Prod.mk.inj hview
    obtain ⟨-, hcommand⟩ := Prod.mk.inj hrest
    exact Prod.ext hconfig (Prod.ext rfl hcommand)

/-- The words for how much is shown are flags by themselves, and set nothing else. -/
theorem exists_idle_of_mem_flagWords {text : String} (h : text ∈ flagWords) :
    ∃ word, Word.ofText programGrammar text = .ok word ∧ IsIdle Options.task word := by
  simp only [flagWords, List.mem_cons, List.not_mem_nil, or_false] at h
  rcases h with rfl | rfl | rfl | rfl <;> exact ⟨_, rfl, _, _, _, rfl, rfl, fun _ => rfl⟩

theorem ne_divider_of_mem_flagWords {text : String} (h : text ∈ flagWords) : text ≠ "--" := by
  rintro rfl
  exact absurd h (by decide)

/-- Words are understood one by one, so those that are left are understood as they were. -/
theorem exists_words_of_thinned {texts few : List String} {ws : List (Word Options)}
    (hthin : Thinned (· ∈ flagWords) few texts) (h : words programGrammar texts = .ok ws)
    (hd : Word.divider ∉ ws) :
    ∃ ws', words programGrammar few = .ok ws' ∧ Thinned (IsIdle Options.task) ws' ws := by
  induction hthin generalizing ws with
  | nil => exact ⟨ws, h, .refl ws⟩
  | keep text hthin ih =>
    rw [words] at h
    split at h
    · obtain rfl := Except.ok.inj h
      exact absurd List.mem_cons_self hd
    · rename_i hne
      obtain ⟨word, hword, h⟩ := except_bind_eq_ok_iff.mp h
      obtain ⟨rest, hrest, h⟩ := except_bind_eq_ok_iff.mp h
      obtain rfl := Except.ok.inj h
      obtain ⟨ws', hws', hthin'⟩ := ih hrest fun hmem => hd (List.mem_cons_of_mem word hmem)
      refine ⟨word :: ws', ?_, .keep word hthin'⟩
      rw [words, if_neg hne, hword, hws']
      rfl
  | drop hflag hthin ih =>
    obtain ⟨idle, hidle, hnothing⟩ := exists_idle_of_mem_flagWords hflag
    rw [words, if_neg (ne_divider_of_mem_flagWords hflag)] at h
    obtain ⟨word, hword, h⟩ := except_bind_eq_ok_iff.mp h
    obtain rfl := Except.ok.inj (hidle.symm.trans hword)
    obtain ⟨rest, hrest, h⟩ := except_bind_eq_ok_iff.mp h
    obtain rfl := Except.ok.inj h
    obtain ⟨ws', hws', hthin'⟩ := ih hrest fun hmem => hd (List.mem_cons_of_mem idle hmem)
    exact ⟨ws', hws', .drop hnothing hthin'⟩

theorem task_withCommand {options options' : Options} (h : options'.task = options.task)
    (command : Option Command) :
    ({ options' with command } : Options).task = ({ options with command } : Options).task := by
  obtain ⟨hconfig, hrest⟩ := Prod.mk.inj h
  obtain ⟨hroot, -⟩ := Prod.mk.inj hrest
  exact Prod.ext hconfig (Prod.ext hroot rfl)

variable {here : Path} {options : Options} {globals few : List String} {command : Command}

/-- What options of the program there are is understood without those that are left out. -/
theorem exists_options_of_thinned {ws : List (Word Options)} {start final start' : Options}
    (hwords : words programGrammar globals = .ok ws) (h : AreOptions programGrammar start final ws [])
    (hthin : Thinned (· ∈ flagWords) few globals) (hstart : start'.task = start.task) :
    ∃ ws' final', words programGrammar few = .ok ws' ∧ final'.task = final.task ∧
      AreOptions programGrammar start' final' ws' [] := by
  obtain ⟨ws', hws', hthin'⟩ := exists_words_of_thinned hthin hwords h.not_divider
  have hread := h.read (Nat.le_refl ws.length) endsOptions_nil
  rw [List.append_nil] at hread
  obtain ⟨used, hused, hoptions⟩ :=
    exists_areOptions_of_thinned programGrammar_respects (areWithin_of_words hwords) hread
  rw [List.append_nil] at hused
  rw [hused] at hthin'
  obtain ⟨final', hfinal, hoptions'⟩ := hoptions ws' start' hthin' hstart
  exact ⟨ws', final', hws', hfinal, hoptions'⟩

theorem exists_areGlobals_of_thinned (h : AreGlobals here options globals)
    (hthin : Thinned (· ∈ flagWords) few globals) :
    ∃ options', options'.task = options.task ∧ AreGlobals here options' few := by
  obtain ⟨ws, final, hwords, hoptions, rfl⟩ := h
  obtain ⟨ws', final', hwords', hfinal, hoptions'⟩ := exists_options_of_thinned hwords hoptions hthin rfl
  exact ⟨{ final' with command := none }, task_withCommand hfinal none, ws', final', hwords', hoptions', rfl⟩

theorem exists_areGlobals_cons {flag : String} (h : AreGlobals here options globals)
    (hflag : flag ∈ flagWords) :
    ∃ options', options'.task = options.task ∧ AreGlobals here options' (flag :: globals) := by
  obtain ⟨ws, final, hwords, hoptions, rfl⟩ := h
  obtain ⟨idle, hidle, o, name, set, rfl, heffect, hset⟩ := exists_idle_of_mem_flagWords hflag
  obtain ⟨ws', final', hwords', hfinal, hoptions'⟩ :=
    exists_options_of_thinned hwords hoptions (.refl globals) (hset { root := .value here })
  obtain rfl := Except.ok.inj (hwords.symm.trans hwords')
  have hword : words programGrammar (flag :: globals) = .ok (.option o name none :: ws) := by
    rw [words, if_neg (ne_divider_of_mem_flagWords hflag), hidle, hwords]
    rfl
  have hall : AreOptions programGrammar { root := .value here } final' (.option o name none :: ws) [] :=
    .option rfl List.not_mem_nil (applyCluster_flag heffect _) hoptions'
  exact ⟨{ final' with command := none }, task_withCommand hfinal none, _, final', hword, hall, rfl⟩

/-! ## The words of a command -/

/-- The word is understood: it is an option that is known, or none at all. -/
def Word.IsUnderstood : Word σ → Prop
  | .plain _ => True
  | .option .. => True
  | _ => False

/-- Where nothing is left over, every word has been understood. The induction is on the rounds, of which
there are more than words. -/
theorem isUnderstood_of_readOptions {rounds : Nat} (hrounds : ws.length < rounds)
    (h : readOptions g false rounds state ws = .ok ⟨next, [], left⟩) : ∀ word ∈ ws, word.IsUnderstood := by
  induction rounds generalizing state ws with
  | zero => omega
  | succ rounds ih =>
    cases ws with
    | nil => exact List.forall_mem_nil _
    | cons word rest =>
      rw [List.length_cons] at hrounds
      cases word with
      | plain first =>
        change (readOptions g false rounds state rest >>= fun r =>
          .ok { r with leftOver := first :: r.leftOver }) = _ at h
        obtain ⟨r, -, h⟩ := except_bind_eq_ok_iff.mp h
        obtain ⟨-, hnone, -⟩ := Reading.mk.inj (Except.ok.inj h)
        contradiction
      | divider =>
        change (readOptions g false rounds state rest >>= fun r =>
          .ok { r with leftOver := "--" :: r.leftOver }) = _ at h
        obtain ⟨r, -, h⟩ := except_bind_eq_ok_iff.mp h
        obtain ⟨-, hnone, -⟩ := Reading.mk.inj (Except.ok.inj h)
        contradiction
      | unknown first =>
        rw [readOptions] at h
        obtain ⟨r, -, h⟩ := except_bind_eq_ok_iff.mp h
        obtain ⟨-, hnone, -⟩ := Reading.mk.inj (Except.ok.inj h)
        contradiction
      | option o name argument =>
        rw [readOptions] at h
        obtain ⟨k, -, h⟩ := except_bind_eq_ok_iff.mp h
        obtain ⟨⟨first, left'⟩, happly, hread⟩ := except_bind_eq_ok_iff.mp h
        obtain ⟨taken, rfl, hplain, -⟩ := applyCluster_frame happly
        rw [List.length_append] at hrounds
        refine List.forall_mem_cons.mpr ⟨trivial, List.forall_mem_append.mpr ⟨?_, ih (by omega) hread⟩⟩
        intro word hword
        obtain ⟨text, rfl⟩ := hplain word hword
        trivial

/-- If every word is understood, none is the divider, so each of them is what its text alone says. -/
theorem exists_word_of_mem {texts : List String} (h : words g texts = .ok ws)
    (hall : ∀ word ∈ ws, word.IsUnderstood) :
    ∀ text ∈ texts, ∃ word, Word.ofText g text = .ok word ∧ word.IsUnderstood := by
  induction texts generalizing ws with
  | nil => exact List.forall_mem_nil _
  | cons text texts ih =>
    rw [words] at h
    split at h
    · obtain rfl := Except.ok.inj h
      exact absurd (hall .divider List.mem_cons_self) not_false
    · obtain ⟨word, hword, h⟩ := except_bind_eq_ok_iff.mp h
      obtain ⟨rest, hrest, h⟩ := except_bind_eq_ok_iff.mp h
      obtain rfl := Except.ok.inj h
      obtain ⟨hfirst, hothers⟩ := List.forall_mem_cons.mp hall
      exact List.forall_mem_cons.mpr ⟨⟨word, hword, hfirst⟩, ih hrest hothers⟩

/-- Where no word is left over, none is one that the grammar does not know. -/
theorem notMem_of_readAll {texts : List String} {text : String} (h : readAll g state texts = .ok (next, []))
    (hunknown : Word.ofText g text = .ok (.unknown text)) : text ∉ texts := by
  intro hmem
  unfold readAll at h
  obtain ⟨ws, hwords, h⟩ := except_bind_eq_ok_iff.mp h
  obtain ⟨r, hread, h⟩ := except_bind_eq_ok_iff.mp h
  obtain ⟨hstate, hleft⟩ := Prod.mk.inj (Except.ok.inj h)
  have hr : r = ⟨r.state, [], r.rest⟩ := by rw [← hleft]
  rw [hr] at hread
  obtain ⟨word, hword, hunderstood⟩ :=
    exists_word_of_mem hwords (isUnderstood_of_readOptions (Nat.lt_succ_self _) hread) text hmem
  obtain rfl := Except.ok.inj (hunknown.symm.trans hword)
  exact hunderstood

theorem ofText_identify_of_mem_flagWords {text : String} (h : text ∈ flagWords) :
    Word.ofText identifyGrammar text = .ok (.unknown text) := by
  simp only [flagWords, List.mem_cons, List.not_mem_nil, or_false] at h
  rcases h with rfl | rfl | rfl | rfl <;> rfl

theorem ofText_decide_of_mem_flagWords {text : String} (h : text ∈ flagWords) :
    Word.ofText decideGrammar text = .ok (.unknown text) := by
  simp only [flagWords, List.mem_cons, List.not_mem_nil, or_false] at h
  rcases h with rfl | rfl | rfl | rfl <;> rfl

/-- A command has one of two names, and no flag of the program among its words. -/
theorem flags_before_command {name : String} {rest : List String}
    (h : readCommand name rest = .ok (command, [])) :
    name ∈ commandNames ∧ ∀ text ∈ name :: rest, text ∉ flagWords := by
  have hname : ∀ name ∈ commandNames, name ∉ flagWords := by decide
  unfold readCommand at h
  split at h
  · rename_i heq
    obtain ⟨⟨folder, left⟩, hread, hpair⟩ := except_map_eq_ok_iff.mp h
    obtain ⟨-, rfl⟩ := Prod.mk.inj hpair
    have hmem : name ∈ commandNames := heq ▸ by decide
    exact ⟨hmem, List.forall_mem_cons.mpr ⟨hname name hmem, fun text htext hflag =>
      notMem_of_readAll hread (ofText_identify_of_mem_flagWords hflag) htext⟩⟩
  · split at h
    · rename_i heq
      obtain ⟨⟨⟨declared, installed⟩, left⟩, hread, hpair⟩ := except_map_eq_ok_iff.mp h
      obtain ⟨-, rfl⟩ := Prod.mk.inj hpair
      have hmem : name ∈ commandNames := heq ▸ by decide
      exact ⟨hmem, List.forall_mem_cons.mpr ⟨hname name hmem, fun text htext hflag =>
        notMem_of_readAll hread (ofText_decide_of_mem_flagWords hflag) htext⟩⟩
    · contradiction

/-! ## Command lines -/

/-- Words are understood one by one, so those behind others are understood as well. -/
theorem exists_words_of_append {front back : List String} {used : List (Word σ)}
    (hfront : words g front = .ok used) (hd : Word.divider ∉ used)
    (h : words g (front ++ back) = .ok ws) : ∃ left, words g back = .ok left := by
  induction front generalizing used ws with
  | nil => exact ⟨ws, h⟩
  | cons text front ih =>
    rw [words] at hfront
    rw [List.cons_append, words] at h
    split at hfront
    · obtain rfl := Except.ok.inj hfront
      exact absurd List.mem_cons_self hd
    · rename_i hne
      rw [if_neg hne] at h
      obtain ⟨word, -, hfront⟩ := except_bind_eq_ok_iff.mp hfront
      obtain ⟨used', hused', hfront⟩ := except_bind_eq_ok_iff.mp hfront
      obtain rfl := Except.ok.inj hfront
      obtain ⟨word', -, h⟩ := except_bind_eq_ok_iff.mp h
      obtain ⟨rest, hrest, -⟩ := except_bind_eq_ok_iff.mp h
      exact ih hused' (fun hmem => hd (List.mem_cons_of_mem word hmem)) hrest

theorem exists_words_of_commandName {name : String} {rest : List String} {ws : List (Word Options)}
    (hname : name ∈ commandNames) (h : words programGrammar (name :: rest) = .ok ws) :
    ∃ ws', words programGrammar (name :: rest) = .ok (.plain name :: ws') := by
  have hplain : name ≠ "--" ∧ Word.ofText programGrammar name = .ok (.plain name) := by
    simp only [commandNames, List.mem_cons, List.not_mem_nil, or_false] at hname
    rcases hname with rfl | rfl
    · exact ⟨by decide, rfl⟩
    · exact ⟨by decide, rfl⟩
  rw [words, if_neg hplain.1, hplain.2] at h ⊢
  obtain ⟨word, hword, h⟩ := except_bind_eq_ok_iff.mp h
  obtain rfl := Except.ok.inj hword
  obtain ⟨ws', hws', -⟩ := except_bind_eq_ok_iff.mp h
  rw [hws']
  exact ⟨ws', rfl⟩

/-- A command line in its parts: the words of the program, and the command with words of its own, which
the program passes over. -/
structure HasParts (here : Path) (options : Options) (command : Command) (globals : List String)
    (name : String) (rest : List String) : Prop where
  areGlobals : AreGlobals here options globals
  passed : ∃ ws, words programGrammar (name :: rest) = .ok (.plain name :: ws)
  command : readCommand name rest = .ok (command, [])

variable {name : String} {arguments texts : List String} {options' : Options}

theorem exists_hasParts_of_read (h : Options.read here texts = .ok options)
    (hc : options.command = some command) :
    ∃ globals name rest, texts = globals ++ name :: rest ∧
      HasParts here { options with command := none } command globals name rest := by
  obtain ⟨globals, name, rest, rfl, hglobals, hcommand⟩ := exists_command_of_read h hc
  have hparts := areGlobals_of_read hglobals rfl
  obtain ⟨used, state, hused, hoptions, -⟩ := hparts
  unfold Options.read at h
  obtain ⟨ws, hwords, -⟩ := except_bind_eq_ok_iff.mp h
  obtain ⟨left, hleft⟩ := exists_words_of_append hused hoptions.not_divider hwords
  exact ⟨globals, name, rest, rfl, areGlobals_of_read hglobals rfl,
    exists_words_of_commandName (flags_before_command hcommand).1 hleft, hcommand⟩

/-- Other words of the program with the same meaning may stand before the command. -/
theorem HasParts.exists_read (h : HasParts here options command globals name arguments)
    (hfew : AreGlobals here options' few) (htask : options'.task = options.task)
    (hnone : options.command = none) :
    ∃ o, Options.read here (few ++ name :: arguments) = .ok o ∧
      o.task = ({ options with command := some command } : Options).task := by
  obtain ⟨ws, hws⟩ := h.passed
  have hnone' : options'.command = none := by
    rw [← hnone]
    exact congrArg (fun task => task.2.2) htask
  exact ⟨{ options' with command := some command }, read_append hfew.read hnone' hws h.command,
    task_withCommand htask _⟩

/-- Flags that are left out of a command line with a command leave one that asks for the same. -/
theorem exists_read_of_thinned (h : Options.read here texts = .ok options)
    (hc : options.command = some command) (hthin : Thinned (· ∈ flagWords) few texts) :
    ∃ o, Options.read here few = .ok o ∧ o.task = options.task := by
  obtain ⟨globals, name, rest, rfl, hparts⟩ := exists_hasParts_of_read h hc
  obtain ⟨front, back, rfl, hfront, hback⟩ := hthin.exists_append
  obtain rfl := hback.eq_of_forall_not (flags_before_command hparts.command).2
  obtain ⟨options', htask, hfew⟩ := exists_areGlobals_of_thinned hparts.areGlobals hfront
  obtain ⟨o, hread, ho⟩ := hparts.exists_read hfew htask rfl
  refine ⟨o, hread, ho.trans ?_⟩
  rw [← hc]

/-- A flag can stand before a command line with a command. -/
theorem exists_read_cons {flag : String} (h : Options.read here texts = .ok options)
    (hc : options.command = some command) (hflag : flag ∈ flagWords) :
    ∃ o, Options.read here (flag :: texts) = .ok o ∧ o.task = options.task := by
  obtain ⟨globals, name, rest, rfl, hparts⟩ := exists_hasParts_of_read h hc
  obtain ⟨options', htask, hmore⟩ := exists_areGlobals_cons hparts.areGlobals hflag
  obtain ⟨o, hread, ho⟩ := hparts.exists_read hmore htask rfl
  refine ⟨o, hread, ho.trans ?_⟩
  rw [← hc]

/-! ## Runs -/

/-- Two runs end alike: with the same code or failure, the same output and the same disk. -/
structure Outcome.EndsAlike (a b : Outcome) : Prop where
  exit : a.exit = b.exit
  output : a.output = b.output
  disk : a.disk = b.disk

variable {s : Surroundings} {disk : Disk}

/-- What is done depends on what is asked for. -/
theorem perform_of_task (h : options'.task = options.task) (s : Surroundings) (disk : Disk)
    (command : Command) : perform s options' disk command = perform s options disk command := by
  obtain ⟨verbose, quiet, config, root, selected⟩ := options
  obtain ⟨verbose', quiet', config', root', selected'⟩ := options'
  obtain ⟨rfl, hrest⟩ := Prod.mk.inj h
  obtain ⟨rfl, -⟩ := Prod.mk.inj hrest
  cases command <;> rfl

theorem runCommand_endsAlike (h : options'.task = options.task) :
    (runCommand s options' command disk).EndsAlike (runCommand s options command disk) := by
  unfold runCommand
  rw [perform_of_task h s disk command]
  exact ⟨rfl, rfl, rfl⟩

theorem run_endsAlike {others : List String} (h : Options.read (.ofRoot disk.here) texts = .ok options)
    (hc : options.command = some command) (h' : Options.read (.ofRoot disk.here) others = .ok options')
    (htask : options'.task = options.task) :
    (run s others disk).EndsAlike (run s texts disk) := by
  have hc' : options'.command = some command := by
    rw [← hc]
    exact congrArg (fun task => task.2.2) htask
  rw [run_of_read h hc, run_of_read h' hc']
  exact runCommand_endsAlike htask

/-- The words of a command line without the flags for how much is shown. -/
def withoutFlags (texts : List String) : List String := texts.filter (· ∉ flagWords)

theorem thinned_withoutFlags (texts : List String) :
    Thinned (· ∈ flagWords) (withoutFlags texts) texts := Thinned.filter texts

/-- **Verbosity.** Let a command line ask for a command. One that asks for the same apart from how much is
shown ends alike, whatever its words are. Flags for that can be left out of it, wherever they stand, and can
be put before it; either way it asks for the same. So two command lines with a command that differ in such
flags alone end alike, whichever of them each has and wherever. -/
theorem verbosity_changes_errors_only (s : Surroundings) (disk : Disk) {texts : List String}
    {options : Options} {command : Command}
    (h : Options.read (.ofRoot disk.here) texts = .ok options) (hc : options.command = some command) :
    (∀ others options', Options.read (.ofRoot disk.here) others = .ok options' →
      options'.task = options.task → (run s others disk).EndsAlike (run s texts disk)) ∧
    (∀ few, Thinned (· ∈ flagWords) few texts →
      (∃ o, Options.read (.ofRoot disk.here) few = .ok o ∧ o.task = options.task) ∧
        (run s few disk).EndsAlike (run s texts disk)) ∧
    (∀ flag ∈ flagWords,
      (∃ o, Options.read (.ofRoot disk.here) (flag :: texts) = .ok o ∧ o.task = options.task) ∧
        (run s (flag :: texts) disk).EndsAlike (run s texts disk)) ∧
    ∀ others options' command', Options.read (.ofRoot disk.here) others = .ok options' →
      options'.command = some command' → withoutFlags others = withoutFlags texts →
        (run s others disk).EndsAlike (run s texts disk) := by
  refine ⟨fun others options' h' => run_endsAlike h hc h', ?_, ?_, ?_⟩
  · intro few hthin
    obtain ⟨o, hread, htask⟩ := exists_read_of_thinned h hc hthin
    exact ⟨⟨o, hread, htask⟩, run_endsAlike h hc hread htask⟩
  · intro flag hflag
    obtain ⟨o, hread, htask⟩ := exists_read_cons h hc hflag
    exact ⟨⟨o, hread, htask⟩, run_endsAlike h hc hread htask⟩
  · intro others options' command' h' hc' hsame
    -- both ask for what is asked for without any flag
    obtain ⟨o, hread, htask⟩ := exists_read_of_thinned h hc (thinned_withoutFlags texts)
    obtain ⟨o', hread', htask'⟩ := exists_read_of_thinned h' hc' (thinned_withoutFlags others)
    rw [hsame] at hread'
    obtain rfl := except_ok_unique hread hread'
    exact run_endsAlike h hc h' (htask'.symm.trans htask)

/-- A decision for a version that is given, with both flags, one of them twice and one cut short. -/
def loudWords : List String :=
  ["-q", "--project-root", "go", "-v", "--verb", "--quiet", "decide", "--env-version", "1.5"]

def quietWords : List String := ["--project-root", "go", "-q", "decide", "--env-version", "1.5"]

/-- What either asks for. -/
def wordsOptions (verbose : Bool) : Options where
  verbose := verbose
  quiet := true
  root := .value (.ofText "go")
  command := some (.decide none (some (.value "1.5")))

theorem loudWords_change_errors_only :
    Options.read (.ofRoot emptyDisk.here) loudWords = .ok (wordsOptions true) ∧
      Options.read (.ofRoot emptyDisk.here) quietWords = .ok (wordsOptions false) ∧
      (wordsOptions true).verbosity = .verbose ∧ (wordsOptions false).verbosity = .quiet ∧
      (run bare quietWords emptyDisk).EndsAlike (run bare loudWords emptyDisk) := by
  have hloud : Options.read (.ofRoot emptyDisk.here) loudWords = .ok (wordsOptions true) := rfl
  have hquiet : Options.read (.ofRoot emptyDisk.here) quietWords = .ok (wordsOptions false) := rfl
  obtain ⟨hends, -⟩ := verbosity_changes_errors_only bare emptyDisk hloud rfl
  exact ⟨hloud, hquiet, rfl, rfl, hends quietWords _ hquiet rfl⟩

end ToolchainChoice.CommandLine
