import ToolchainChoice.CommandLine.Options
import ToolchainChoice.Proofs.Results

/-!
# Command lines made of parts

Words that are understood as the options of the program mean the same whatever command follows them:
the program has read all of them when it comes to the name of the command, and the words behind the
name are the command's. So every command line with a command can be taken apart there, and another
command can be put behind the same options.
-/
namespace ToolchainChoice.CommandLine

variable {σ : Type} {g : Grammar σ} {state state' : σ} {ws left more : List (Word σ)}

/-! ## Options before anything else -/

/-- None of the words is an option, known or not, or the divider. -/
def ArePlain (ws : List (Word σ)) : Prop := ∀ word ∈ ws, ∃ text, word = .plain text

theorem ArePlain.not_divider (h : ArePlain ws) : Word.divider ∉ ws := by
  intro hmem
  obtain ⟨text, htext⟩ := h _ hmem
  contradiction

theorem arePlain_nil : ArePlain ([] : List (Word σ)) := List.forall_mem_nil _

theorem arePlain_singleton (text : String) : ArePlain ([.plain text] : List (Word σ)) :=
  List.forall_mem_singleton.mpr ⟨text, rfl⟩

/-- What one word takes from those that follow it, it takes whatever stands behind them; it takes
no option and not the divider. -/
theorem lastArgument_frame {k : Cluster σ} {rest : List (Word σ)} {argument : Option String}
    (h : lastArgument g k rest = .ok (argument, left)) :
    ∃ used, rest = used ++ left ∧ ArePlain used ∧
      ∀ more, lastArgument g k (used ++ more) = .ok (argument, more) := by
  unfold lastArgument at h ⊢
  split at h
  · rename_i htakes
    split at h
    · rename_i text hgiven
      obtain ⟨rfl, rfl⟩ := Prod.mk.inj (Except.ok.inj h)
      refine ⟨[], rfl, arePlain_nil, fun more => ?_⟩
      rw [if_pos htakes, hgiven]
      rfl
    · rename_i text tail hgiven
      obtain ⟨rfl, rfl⟩ := Prod.mk.inj (Except.ok.inj h)
      refine ⟨[.plain text], rfl, arePlain_singleton text, fun more => ?_⟩
      rw [if_pos htakes, hgiven]
      rfl
    · contradiction
  · rename_i htakes
    obtain ⟨rfl, rfl⟩ := Prod.mk.inj (Except.ok.inj h)
    refine ⟨[], rfl, arePlain_nil, fun more => ?_⟩
    rw [if_neg htakes]
    rfl

theorem applyCluster_frame {k : Cluster σ} {rest : List (Word σ)}
    (h : applyCluster g state k rest = .ok (state', left)) :
    ∃ used, rest = used ++ left ∧ ArePlain used ∧
      ∀ more, applyCluster g state k (used ++ more) = .ok (state', more) := by
  unfold applyCluster at h ⊢
  obtain ⟨⟨argument, left'⟩, hlast, h⟩ := except_bind_eq_ok_iff.mp h
  obtain ⟨flagged, hflags, h⟩ := except_bind_eq_ok_iff.mp h
  obtain ⟨taken, htaken, h⟩ := except_bind_eq_ok_iff.mp h
  obtain ⟨rfl, rfl⟩ := Prod.mk.inj (Except.ok.inj h)
  obtain ⟨used, hused, hplain, hframe⟩ := lastArgument_frame hlast
  refine ⟨used, hused, hplain, fun more => ?_⟩
  rw [hframe more]
  exact except_bind_eq_ok_iff.mpr ⟨_, rfl, except_bind_eq_ok_iff.mpr ⟨_, hflags,
    except_bind_eq_ok_iff.mpr ⟨_, htaken, rfl⟩⟩⟩

/-- The reading of options does not go on into these words. -/
def EndsOptions (ws : List (Word σ)) : Prop := ∀ word ∈ ws.head?, ∃ text, word = .plain text

theorem endsOptions_nil : EndsOptions ([] : List (Word σ)) := by
  rintro word h
  contradiction

theorem endsOptions_plain {text : String} : EndsOptions (.plain text :: ws) := by
  rintro word h
  exact ⟨text, (Option.some.inj h).symm⟩

theorem readOptions_of_endsOptions {rounds : Nat} (h : EndsOptions ws) :
    readOptions g true rounds state ws = .ok ⟨state, [], ws⟩ := by
  cases ws with
  | nil => cases rounds <;> rfl
  | cons word rest =>
    obtain ⟨text, rfl⟩ := h word rfl
    cases rounds <;> rfl

/-- The words are options, none of them the divider: from them one state leads to another, whatever
follows that ends them. What is not understood is left over. -/
structure AreOptions (g : Grammar σ) (state state' : σ) (ws : List (Word σ))
    (leftOver : List String) : Prop where
  not_divider : Word.divider ∉ ws
  read : ∀ {rounds more}, ws.length ≤ rounds → EndsOptions more →
    readOptions g true rounds state (ws ++ more) = .ok ⟨state', leftOver, more⟩

namespace AreOptions

variable {leftOver : List String}

theorem nil : AreOptions g state state [] [] where
  not_divider := List.not_mem_nil
  read _ hmore := readOptions_of_endsOptions hmore

theorem unknown {text : String} (h : AreOptions g state state' ws leftOver) :
    AreOptions g state state' (.unknown text :: ws) (text :: leftOver) where
  not_divider := by simp [h.not_divider]
  read {rounds more} hr hmore := by
    obtain ⟨rounds, rfl⟩ : ∃ n, rounds = n + 1 := Nat.exists_eq_add_one.mpr (by
      rw [List.length_cons] at hr
      omega)
    rw [List.cons_append, readOptions]
    exact except_bind_eq_ok_iff.mpr ⟨_, h.read (Nat.le_of_succ_le_succ hr) hmore, rfl⟩

theorem option {o : OptionSpec σ} {name : String} {argument : Option (List Char)} {k : Cluster σ}
    {next : σ} {used : List (Word σ)} (hk : cluster g o name argument = .ok k)
    (hused : Word.divider ∉ used)
    (happly : ∀ more, applyCluster g state k (used ++ more) = .ok (next, more))
    (h : AreOptions g next state' ws leftOver) :
    AreOptions g state state' (.option o name argument :: (used ++ ws)) leftOver where
  not_divider := by simp [hused, h.not_divider]
  read {rounds more} hr hmore := by
    rw [List.length_cons, List.length_append] at hr
    obtain ⟨rounds, rfl⟩ : ∃ n, rounds = n + 1 := Nat.exists_eq_add_one.mpr (by omega)
    have hread : readOptions g true rounds next (ws ++ more) = .ok ⟨state', leftOver, more⟩ :=
      h.read (by omega) hmore
    rw [List.cons_append, List.append_assoc, readOptions]
    exact except_bind_eq_ok_iff.mpr ⟨k, hk,
      except_bind_eq_ok_iff.mpr ⟨(next, ws ++ more), happly (ws ++ more), hread⟩⟩

end AreOptions

/-- What a reading has read are options. The induction is on the rounds; every word takes one at
most. -/
theorem exists_areOptions_of_readOptions {leftOver : List String} {rounds : Nat}
    (h : readOptions g true rounds state ws = .ok ⟨state', leftOver, left⟩) :
    ∃ used, ws = used ++ left ∧ AreOptions g state state' used leftOver := by
  induction rounds generalizing state ws leftOver with
  | zero =>
    obtain ⟨rfl, rfl, rfl⟩ := Reading.mk.inj (Except.ok.inj h)
    exact ⟨[], rfl, .nil⟩
  | succ rounds ih =>
    cases ws with
    | nil =>
      obtain ⟨rfl, rfl, rfl⟩ := Reading.mk.inj (Except.ok.inj h)
      exact ⟨[], rfl, .nil⟩
    | cons word rest =>
      cases word with
      | plain first =>
        obtain ⟨rfl, rfl, rfl⟩ := Reading.mk.inj (Except.ok.inj h)
        exact ⟨[], rfl, .nil⟩
      | divider =>
        obtain ⟨rfl, rfl, rfl⟩ := Reading.mk.inj (Except.ok.inj h)
        exact ⟨[], rfl, .nil⟩
      | unknown first =>
        rw [readOptions] at h
        obtain ⟨r, hread, h⟩ := except_bind_eq_ok_iff.mp h
        obtain ⟨rfl, rfl, rfl⟩ := Reading.mk.inj (Except.ok.inj h)
        obtain ⟨used, rfl, hoptions⟩ := ih hread
        exact ⟨.unknown first :: used, rfl, hoptions.unknown⟩
      | option o name argument =>
        rw [readOptions] at h
        obtain ⟨k, hcluster, h⟩ := except_bind_eq_ok_iff.mp h
        obtain ⟨⟨next, left'⟩, happly, hread⟩ := except_bind_eq_ok_iff.mp h
        obtain ⟨taken, rfl, htaken, hframe⟩ := applyCluster_frame happly
        obtain ⟨used, rfl, hoptions⟩ := ih hread
        refine ⟨.option o name argument :: (taken ++ used), ?_, ?_⟩
        · rw [List.cons_append, List.append_assoc]
        · exact .option hcluster htaken.not_divider hframe hoptions

/-! ## Words -/

theorem length_words {texts : List String} (h : words g texts = .ok ws) :
    ws.length = texts.length := by
  induction texts generalizing ws with
  | nil =>
    obtain rfl := Except.ok.inj h
    rfl
  | cons text texts ih =>
    rw [words] at h
    split at h
    · obtain rfl := Except.ok.inj h
      simp
    · obtain ⟨word, -, h⟩ := except_bind_eq_ok_iff.mp h
      obtain ⟨rest, hrest, h⟩ := except_bind_eq_ok_iff.mp h
      obtain rfl := Except.ok.inj h
      rw [List.length_cons, List.length_cons, ih hrest]

/-- Where no word is the divider, every word is understood by itself. -/
theorem words_append {texts others : List String} (h : words g texts = .ok ws)
    (hd : Word.divider ∉ ws) (hmore : words g others = .ok more) :
    words g (texts ++ others) = .ok (ws ++ more) := by
  induction texts generalizing ws with
  | nil =>
    obtain rfl := Except.ok.inj h
    exact hmore
  | cons text texts ih =>
    rw [words] at h
    rw [List.cons_append, words]
    split at h
    · obtain rfl := Except.ok.inj h
      exact absurd List.mem_cons_self hd
    · rename_i hne
      obtain ⟨word, hword, h⟩ := except_bind_eq_ok_iff.mp h
      obtain ⟨rest, hrest, h⟩ := except_bind_eq_ok_iff.mp h
      obtain rfl := Except.ok.inj h
      have happend := ih hrest fun hmem => hd (List.mem_cons_of_mem _ hmem)
      rw [if_neg hne]
      exact except_bind_eq_ok_iff.mpr ⟨word, hword,
        except_bind_eq_ok_iff.mpr ⟨rest ++ more, happend, rfl⟩⟩

/-- Words are understood one by one, so they can be taken apart wherever the divider is not among the
first of them. -/
theorem exists_append_of_words {texts : List String} {used : List (Word σ)}
    (h : words g texts = .ok (used ++ left)) (hd : Word.divider ∉ used) :
    ∃ front back, texts = front ++ back ∧ words g front = .ok used ∧ words g back = .ok left := by
  induction used generalizing texts with
  | nil => exact ⟨[], texts, rfl, rfl, h⟩
  | cons word used ih =>
    cases texts with
    | nil =>
      have hempty := Except.ok.inj h
      contradiction
    | cons text texts =>
      rw [words] at h
      split at h
      · obtain ⟨rfl, -⟩ := List.cons.inj (Except.ok.inj h)
        exact absurd List.mem_cons_self hd
      · rename_i hne
        obtain ⟨word', hword, h⟩ := except_bind_eq_ok_iff.mp h
        obtain ⟨rest, hrest, h⟩ := except_bind_eq_ok_iff.mp h
        obtain ⟨rfl, rfl⟩ := List.cons.inj (Except.ok.inj h)
        obtain ⟨front, back, rfl, hfront, hback⟩ :=
          ih hrest fun hmem => hd (List.mem_cons_of_mem _ hmem)
        refine ⟨text :: front, back, rfl, ?_, hback⟩
        rw [words, if_neg hne, hword, hfront]
        rfl

/-! ## Options and a command -/

open Files (Path)

variable {here : Path} {o : Options} {globals rest : List String} {command : Command}

/-- The words of the program before a command, and what they mean. -/
def AreGlobals (here : Path) (o : Options) (globals : List String) : Prop :=
  ∃ ws state, words programGrammar globals = .ok ws ∧
    AreOptions programGrammar { root := .value here } state ws [] ∧
    o = { state with command := none }

theorem AreGlobals.read (h : AreGlobals here o globals) : Options.read here globals = .ok o := by
  obtain ⟨ws, state, hwords, hoptions, rfl⟩ := h
  have hread := hoptions.read (Nat.le_succ ws.length) endsOptions_nil
  rw [List.append_nil] at hread
  unfold Options.read
  rw [hwords]
  change (readOptions programGrammar true (ws.length + 1) _ ws >>= _) = _
  rw [hread]
  change (readTail (globals.drop (globals.length - 0)) >>= _) = _
  rw [Nat.sub_zero, List.drop_length]
  rfl

/-- Every reading of a command line begins with words of the program. -/
theorem exists_areGlobals_of_read {texts : List String} (h : Options.read here texts = .ok o) :
    ∃ globals back, texts = globals ++ back ∧
      AreGlobals here { o with command := none } globals ∧
      readTail back = .ok (o.command, []) := by
  unfold Options.read at h
  obtain ⟨ws, hwords, h⟩ := except_bind_eq_ok_iff.mp h
  obtain ⟨⟨state, leftOver, left⟩, hread, h⟩ := except_bind_eq_ok_iff.mp h
  obtain ⟨⟨command, leftOver'⟩, htail, hend⟩ := except_bind_eq_ok_iff.mp h
  dsimp only at htail hend
  split at hend
  · rename_i hnone
    obtain ⟨rfl, rfl⟩ := List.append_eq_nil_iff.mp hnone
    obtain rfl := Except.ok.inj hend
    obtain ⟨used, rfl, hoptions⟩ := exists_areOptions_of_readOptions hread
    obtain ⟨globals, back, rfl, hglobals, hback⟩ :=
      exists_append_of_words hwords hoptions.not_divider
    rw [length_words hback, List.length_append, Nat.add_sub_cancel, List.drop_left] at htail
    exact ⟨globals, back, rfl, ⟨used, state, hglobals, hoptions, rfl⟩, htail⟩
  · contradiction

theorem eq_nil_of_readTail {texts : List String} (h : readTail texts = .ok (none, [])) :
    texts = [] := by
  cases texts with
  | nil => rfl
  | cons name rest =>
    rw [readTail] at h
    split at h
    · have hleft := congrArg Prod.snd (Except.ok.inj h)
      contradiction
    · obtain ⟨result, -, hresult⟩ := except_map_eq_ok_iff.mp h
      have hcommand := congrArg Prod.fst hresult
      contradiction

theorem areGlobals_of_read (h : Options.read here globals = .ok o) (hc : o.command = none) :
    AreGlobals here o globals := by
  obtain ⟨front, back, rfl, hfront, hback⟩ := exists_areGlobals_of_read h
  rw [hc] at hback
  obtain rfl := eq_nil_of_readTail hback
  have ho : { o with command := none } = o := by rw [← hc]
  rw [ho] at hfront
  rw [List.append_nil]
  exact hfront

/-- **Decomposition.** A command line with a command is options that are understood by themselves,
the name of the command and its own words. -/
theorem exists_command_of_read {texts : List String} (h : Options.read here texts = .ok o)
    (hc : o.command = some command) :
    ∃ globals name rest, texts = globals ++ name :: rest ∧
      Options.read here globals = .ok { o with command := none } ∧
      readCommand name rest = .ok (command, []) := by
  obtain ⟨globals, back, rfl, hglobals, hback⟩ := exists_areGlobals_of_read h
  rw [hc] at hback
  cases back with
  | nil =>
    have hnone := congrArg Prod.fst (Except.ok.inj hback)
    contradiction
  | cons name rest =>
    rw [readTail] at hback
    split at hback
    · have hnone := congrArg Prod.fst (Except.ok.inj hback)
      contradiction
    · obtain ⟨⟨command', left⟩, hcommand, hpair⟩ := except_map_eq_ok_iff.mp hback
      obtain ⟨hsome, rfl⟩ := Prod.mk.inj hpair
      obtain rfl := Option.some.inj hsome
      exact ⟨globals, name, rest, rfl, hglobals.read, hcommand⟩

theorem name_of_readCommand_identify {name : String} {folder : Option Path}
    (h : readCommand name rest = .ok (.identify folder, [])) : name = "identify-environment" := by
  unfold readCommand at h
  split at h
  · assumption
  · split at h
    · obtain ⟨⟨⟨declared, installed⟩, left⟩, -, hdecide⟩ := except_map_eq_ok_iff.mp h
      have hcommand := congrArg Prod.fst hdecide
      contradiction
    · contradiction

/-- **Composition.** Behind options that are understood by themselves, the first word that is none
is the name of a command, and the words behind it are the command's own. -/
theorem read_append {name : String} {ws : List (Word Options)}
    (h : Options.read here globals = .ok o) (hc : o.command = none)
    (hname : words programGrammar (name :: rest) = .ok (.plain name :: ws))
    (hcommand : readCommand name rest = .ok (command, [])) :
    Options.read here (globals ++ name :: rest) = .ok { o with command := some command } := by
  obtain ⟨before, state, hwords, hoptions, rfl⟩ := areGlobals_of_read h hc
  have hn : name ≠ "--" := by
    rintro rfl
    have hdivider := Except.ok.inj hname
    contradiction
  have hall := words_append hwords hoptions.not_divider hname
  have hread : readOptions programGrammar true ((before ++ .plain name :: ws).length + 1)
      { root := .value here } (before ++ .plain name :: ws) =
        .ok ⟨state, [], .plain name :: ws⟩ := by
    refine hoptions.read ?_ endsOptions_plain
    rw [List.length_append]
    omega
  have hdrop : (globals ++ name :: rest).drop
      ((globals ++ name :: rest).length - (Word.plain name :: ws).length) = name :: rest := by
    rw [length_words hname, List.length_append, Nat.add_sub_cancel, List.drop_left]
  have htail : readTail (name :: rest) = .ok (some command, []) := by
    rw [readTail, if_neg fun hdivider => hn hdivider.1, hcommand]
    rfl
  unfold Options.read
  rw [hall]
  change (readOptions programGrammar true _ _ (before ++ .plain name :: ws) >>= _) = _
  rw [hread]
  change (readTail ((globals ++ name :: rest).drop _) >>= _) = _
  rw [hdrop, htail]
  rfl

/-! ## Versions that are given -/

/-- The words of the `decide` command for two versions, where one that is missing is left out. -/
def versionWords (declared installed : Option String) : List String :=
  (declared.map fun version => ["--manifest-version", version]).getD [] ++
    (installed.map fun version => ["--env-version", version]).getD []

/-- A text that can stand as the argument of an option. -/
def IsArgument (text : String) : Prop := text.toList.head? ≠ some '-'

variable {text : String} {texts : List String} {declared installed : Option String}

theorem ne_divider_of_isArgument (h : IsArgument text) : text ≠ "--" := by
  rintro rfl
  exact h rfl

theorem words_cons_argument (h : IsArgument text) (hw : words g texts = .ok ws) :
    words g (text :: texts) = .ok (.plain text :: ws) := by
  have htext : Word.ofText g text = .ok (.plain text) := if_pos h
  rw [words, if_neg (ne_divider_of_isArgument h), htext, hw]
  rfl

theorem argument_ofText (h : IsArgument text) : Argument.ofText text = .value text :=
  if_neg (ne_divider_of_isArgument h)

theorem words_nil : words g [] = .ok [] := rfl

/-- A name and an argument, and what follows them. -/
theorem words_cons_name {name : String} {word : Word σ} (hname : Word.ofText g name = .ok word)
    (hne : name ≠ "--") (ht : IsArgument text) (hw : words g texts = .ok ws) :
    words g (name :: text :: texts) = .ok (word :: .plain text :: ws) := by
  rw [words, if_neg hne, hname, words_cons_argument ht hw]
  rfl

/-- The program passes over the options of the command. -/
theorem exists_words_versionWords (hd : ∀ v ∈ declared, IsArgument v)
    (hi : ∀ v ∈ installed, IsArgument v) :
    ∃ ws, words programGrammar ("decide" :: versionWords declared installed) =
      .ok (.plain "decide" :: ws) := by
  have hdecide : IsArgument "decide" := by unfold IsArgument; decide
  have hmanifest : Word.ofText programGrammar "--manifest-version" =
      .ok (.unknown "--manifest-version") := rfl
  have henv : Word.ofText programGrammar "--env-version" = .ok (.unknown "--env-version") := rfl
  have hinstalled : ∃ ws, words programGrammar (versionWords none installed) = .ok ws := by
    cases installed with
    | none => exact ⟨[], rfl⟩
    | some i => exact ⟨_, words_cons_name henv (by decide) (hi i rfl) rfl⟩
  obtain ⟨ws, hws⟩ := hinstalled
  cases declared with
  | none => exact ⟨_, words_cons_argument hdecide hws⟩
  | some d =>
    exact ⟨_, words_cons_argument hdecide (words_cons_name hmanifest (by decide) (hd d rfl) hws)⟩

theorem readCommand_decide (hd : ∀ v ∈ declared, IsArgument v)
    (hi : ∀ v ∈ installed, IsArgument v) :
    readCommand "decide" (versionWords declared installed) =
      .ok (.decide (declared.map .value) (installed.map .value), []) := by
  have hmanifest : Word.ofText decideGrammar "--manifest-version" = .ok (.option
      ⟨["--manifest-version"], .argument fun a o => (some a, o.2)⟩ "--manifest-version" none) := rfl
  have henv : Word.ofText decideGrammar "--env-version" = .ok (.option
      ⟨["--env-version"], .argument fun a o => (o.1, some a)⟩ "--env-version" none) := rfl
  have hread : readAll decideGrammar (none, none) (versionWords declared installed) =
      .ok ((declared.map .value, installed.map .value), []) := by
    unfold readAll
    cases declared with
    | none =>
      cases installed with
      | none => rfl
      | some i =>
        have hwords := words_cons_name henv (by decide) (hi i rfl) words_nil
        have hvalue := argument_ofText (hi i rfl)
        change (words decideGrammar ["--env-version", i] >>= _) = _
        rw [hwords, Option.map_some, ← hvalue]
        rfl
    | some d =>
      have hvalue := argument_ofText (hd d rfl)
      cases installed with
      | none =>
        have hwords := words_cons_name hmanifest (by decide) (hd d rfl) words_nil
        change (words decideGrammar ["--manifest-version", d] >>= _) = _
        rw [hwords, Option.map_some, ← hvalue]
        rfl
      | some i =>
        have hvalue' := argument_ofText (hi i rfl)
        have hwords := words_cons_name hmanifest (by decide) (hd d rfl)
          (words_cons_name henv (by decide) (hi i rfl) words_nil)
        change (words decideGrammar ["--manifest-version", d, "--env-version", i] >>= _) = _
        rw [hwords, Option.map_some, Option.map_some, ← hvalue, ← hvalue']
        rfl
  rw [readCommand, if_neg (by decide), if_pos rfl, hread]
  rfl

/-- **Versions that are given.** Behind the same options, the words for two versions are understood as
the command to decide for them. -/
theorem read_versionWords (h : Options.read here globals = .ok o) (hc : o.command = none)
    (hd : ∀ v ∈ declared, IsArgument v) (hi : ∀ v ∈ installed, IsArgument v) :
    Options.read here (globals ++ "decide" :: versionWords declared installed) =
      .ok { o with command := some (.decide (declared.map .value) (installed.map .value)) } := by
  obtain ⟨ws, hws⟩ := exists_words_versionWords hd hi
  exact read_append h hc hws (readCommand_decide hd hi)

end ToolchainChoice.CommandLine
