import ToolchainChoice.Proofs.CommandLine.Composition

/-!
# Flags that are left out

A part of the state may be all that is looked at of the options. A flag that changes nothing of that part
can be left out wherever it stands among the options: the others are read as they were, since no option
takes it for an argument and none makes anything else of the part because of it.

This holds of every grammar whose options keep to the part. They may be given more than once, cut short, or
share a word.
-/
namespace ToolchainChoice.CommandLine

variable {α σ τ : Type} {g : Grammar σ} {view : σ → τ} {state state' next : σ} {o : OptionSpec σ}
variable {ws left rest : List (Word σ)} {k : Cluster σ} {argument : Option String}

/-! ## Lists with some of their elements left out -/

/-- Elements with the property `p` are left out of a list, wherever they stand. -/
inductive Thinned (p : α → Prop) : List α → List α → Prop
  | nil : Thinned p [] []
  | keep (a : α) {few all : List α} (h : Thinned p few all) : Thinned p (a :: few) (a :: all)
  | drop {a : α} {few all : List α} (ha : p a) (h : Thinned p few all) : Thinned p few (a :: all)

namespace Thinned

variable {p : α → Prop} {few all : List α}

theorem refl (all : List α) : Thinned p all all := by
  induction all with
  | nil => exact .nil
  | cons a all ih => exact .keep a ih

theorem filter [DecidablePred p] (all : List α) : Thinned p (all.filter fun a => ¬ p a) all := by
  induction all with
  | nil => exact .nil
  | cons a all ih =>
    by_cases ha : p a
    · rw [List.filter_cons_of_neg (by simpa using ha)]
      exact .drop ha ih
    · rw [List.filter_cons_of_pos (by simpa using ha)]
      exact .keep a ih

/-- A list is thinned part by part. -/
theorem exists_append {front back : List α} (h : Thinned p few (front ++ back)) :
    ∃ few' few'', few = few' ++ few'' ∧ Thinned p few' front ∧ Thinned p few'' back := by
  induction front generalizing few with
  | nil => exact ⟨[], few, rfl, .nil, h⟩
  | cons a front ih =>
    cases h with
    | keep _ h =>
      obtain ⟨few', few'', rfl, hfront, hback⟩ := ih h
      exact ⟨a :: few', few'', rfl, .keep a hfront, hback⟩
    | drop ha h =>
      obtain ⟨few', few'', rfl, hfront, hback⟩ := ih h
      exact ⟨few', few'', rfl, .drop ha hfront, hback⟩

theorem eq_of_forall_not (h : Thinned p few all) (hnot : ∀ a ∈ all, ¬ p a) : few = all := by
  induction h with
  | nil => rfl
  | keep a _ ih => rw [ih fun b hb => hnot b (List.mem_cons_of_mem a hb)]
  | drop ha _ _ => exact absurd ha (hnot _ List.mem_cons_self)

end Thinned

/-! ## What is seen of the options -/

/-- What an option makes of the part of a state that is seen does not depend on the rest of it. -/
def Respects (view : σ → τ) (o : OptionSpec σ) : Prop :=
  ∀ {argument : Option String} {state state' next : σ}, view state' = view state →
    o.take argument state = .ok next → ∃ next', o.take argument state' = .ok next' ∧ view next' = view next

/-- A flag that changes nothing that is seen. -/
def IsIdle (view : σ → τ) (word : Word σ) : Prop :=
  ∃ o name set, word = .option o name none ∧ o.effect = .flag set ∧ ∀ state, view (set state) = view state

theorem IsIdle.not_plain {word : Word σ} (h : IsIdle view word) : ¬ ∃ text, word = .plain text := by
  obtain ⟨o, name, set, rfl, -⟩ := h
  nofun

theorem respects_of_flag {set : σ → σ} (ho : o.effect = .flag set)
    (hset : ∀ state state', view state' = view state → view (set state') = view (set state)) :
    Respects view o := by
  intro argument state state' next hview h
  unfold OptionSpec.take at h ⊢
  rw [ho] at h ⊢
  obtain rfl := Except.ok.inj h
  exact ⟨set state', rfl, hset state state' hview⟩

theorem respects_of_argument {set : Argument String → σ → σ} (ho : o.effect = .argument set)
    (hset : ∀ a state state', view state' = view state → view (set a state') = view (set a state)) :
    Respects view o := by
  intro argument state state' next hview h
  unfold OptionSpec.take at h ⊢
  rw [ho] at h ⊢
  cases argument with
  | none =>
    obtain rfl := Except.ok.inj h
    exact ⟨state', rfl, hview⟩
  | some text =>
    obtain rfl := Except.ok.inj h
    exact ⟨set (.ofText text) state', rfl, hset _ state state' hview⟩

theorem respects_of_showing {text : String} (ho : o.effect = .showing text) : Respects view o := by
  intro argument state state' next hview h
  unfold OptionSpec.take at h
  rw [ho] at h
  contradiction

/-! ## Options of a grammar -/

theorem mem_options_of_mem_names {name : String} (h : (name, o) ∈ g.names) : o ∈ g.options := by
  obtain ⟨o', ho', h⟩ := List.mem_flatMap.mp h
  obtain ⟨name', -, heq⟩ := List.mem_map.mp h
  rw [← (Prod.mk.inj heq).2]
  exact ho'

theorem mem_options_of_find? {name : String} (h : g.find? name = some o) : o ∈ g.options := by
  obtain ⟨before, after, heq, -⟩ := List.lookup_eq_some_iff.mp h
  have hmem : (name, o) ∈ g.names := by
    rw [heq]
    simp
  exact mem_options_of_mem_names hmem

/-- The options in a word are those of the grammar. -/
structure Cluster.IsWithin (g : Grammar σ) (k : Cluster σ) : Prop where
  flags : ∀ o ∈ k.flags, o ∈ g.options
  last : k.last ∈ g.options

/-- The induction is on the letters of the word. -/
theorem isWithin_of_clusterWithin {name : String} {cs : List Char} (ho : o ∈ g.options)
    (h : clusterWithin g o name cs = .ok k) : k.IsWithin g := by
  induction cs generalizing o name k with
  | nil =>
    unfold clusterWithin at h
    split at h
    · obtain rfl := Except.ok.inj h
      exact ⟨List.forall_mem_nil _, ho⟩
    · contradiction
  | cons c rest ih =>
    unfold clusterWithin at h
    dsimp only at h
    split at h
    · obtain rfl := Except.ok.inj h
      exact ⟨List.forall_mem_nil _, ho⟩
    · split at h
      · contradiction
      · split at h
        · contradiction
        · rename_i p hfind
          split at h
          · obtain rfl := Except.ok.inj h
            exact ⟨List.forall_mem_singleton.mpr ho, mem_options_of_find? hfind⟩
          · obtain ⟨k', hk', rfl⟩ := except_map_eq_ok_iff.mp h
            obtain ⟨hflags, hlast⟩ := ih (mem_options_of_find? hfind) hk'
            exact ⟨List.forall_mem_cons.mpr ⟨ho, hflags⟩, hlast⟩

theorem isWithin_of_cluster {name : String} {argument : Option (List Char)} (ho : o ∈ g.options)
    (h : cluster g o name argument = .ok k) : k.IsWithin g := by
  cases argument with
  | none =>
    obtain rfl := Except.ok.inj h
    exact ⟨List.forall_mem_nil _, ho⟩
  | some cs => exact isWithin_of_clusterWithin ho h

theorem mem_options_of_mem_candidates {cs : List Char} {c : String × Word σ} {name : String}
    {argument : Option (List Char)} (hc : c ∈ candidates g cs) (hword : c.2 = .option o name argument) :
    o ∈ g.options := by
  unfold candidates at hc
  split at hc
  · obtain ⟨⟨name', o'⟩, hmem, rfl⟩ := List.mem_map.mp hc
    obtain ⟨rfl, -, -⟩ := Word.option.inj hword
    exact mem_options_of_mem_names (List.mem_filter.mp hmem).1
  · obtain ⟨⟨name', o'⟩, hmem, hsome⟩ := List.mem_filterMap.mp hc
    dsimp only at hsome
    split at hsome
    · obtain rfl := Option.some.inj hsome
      obtain ⟨rfl, -, -⟩ := Word.option.inj hword
      exact mem_options_of_mem_names hmem
    · split at hsome
      · obtain rfl := Option.some.inj hsome
        obtain ⟨rfl, -, -⟩ := Word.option.inj hword
        exact mem_options_of_mem_names hmem
      · contradiction

theorem mem_options_of_ofText {text name : String} {argument : Option (List Char)}
    (h : Word.ofText g text = .ok (.option o name argument)) : o ∈ g.options := by
  unfold Word.ofText at h
  dsimp only at h
  split at h
  · cases h
  · split at h
    · rename_i o' hfind
      obtain ⟨rfl, -, -⟩ := Word.option.inj (Except.ok.inj h)
      exact mem_options_of_find? hfind
    · split at h
      · cases h
      · split at h
        · rename_i o' hfind
          obtain ⟨rfl, -, -⟩ := Word.option.inj (Except.ok.inj h)
          exact mem_options_of_find? hfind
        · split at h
          · split at h <;> cases h
          · rename_i c word hone
            have hmem : (c, word) ∈ candidates g text.toList := by
              rw [hone]
              exact List.mem_singleton_self _
            exact mem_options_of_mem_candidates hmem (Except.ok.inj h)
          · contradiction

/-- Every option among the words is one of the grammar. -/
def AreWithin (g : Grammar σ) (ws : List (Word σ)) : Prop :=
  ∀ o name argument, Word.option o name argument ∈ ws → o ∈ g.options

theorem areWithin_of_words {texts : List String} (h : words g texts = .ok ws) : AreWithin g ws := by
  intro o name argument hmem
  induction texts generalizing ws with
  | nil =>
    obtain rfl := Except.ok.inj h
    contradiction
  | cons text texts ih =>
    rw [words] at h
    split at h
    · obtain rfl := Except.ok.inj h
      rcases List.mem_cons.mp hmem with heq | hmem
      · contradiction
      · obtain ⟨text', -, heq⟩ := List.mem_map.mp hmem
        contradiction
    · obtain ⟨word, hword, h⟩ := except_bind_eq_ok_iff.mp h
      obtain ⟨rest, hrest, h⟩ := except_bind_eq_ok_iff.mp h
      obtain rfl := Except.ok.inj h
      rcases List.mem_cons.mp hmem with rfl | hmem
      · exact mem_options_of_ofText hword
      · exact ih hrest hmem

/-! ## Reading with some flags left out -/

/-- Every option of the grammar keeps to what is seen. -/
def Grammar.Respects (g : Grammar σ) (view : σ → τ) : Prop :=
  ∀ o ∈ g.options, CommandLine.Respects view o

theorem exists_foldlM_of_view {flags : List (OptionSpec σ)}
    (hflags : ∀ o ∈ flags, Respects view o) (hview : view state' = view state)
    (h : flags.foldlM (fun (state : σ) (o : OptionSpec σ) => o.take none state) state = .ok next) :
    ∃ next', flags.foldlM (fun (state : σ) (o : OptionSpec σ) => o.take none state) state' = .ok next' ∧
      view next' = view next := by
  induction flags generalizing state state' with
  | nil =>
    obtain rfl := Except.ok.inj h
    exact ⟨state', rfl, hview⟩
  | cons o flags ih =>
    rw [List.foldlM_cons] at h
    obtain ⟨first, hfirst, h⟩ := except_bind_eq_ok_iff.mp h
    obtain ⟨ho, hflags⟩ := List.forall_mem_cons.mp hflags
    obtain ⟨first', hfirst', hview'⟩ := ho hview hfirst
    obtain ⟨next', hnext', hnext⟩ := ih hflags hview' h
    refine ⟨next', ?_, hnext⟩
    rw [List.foldlM_cons]
    exact except_bind_eq_ok_iff.mpr ⟨first', hfirst', hnext'⟩

theorem exists_applyCluster_of_view (hg : g.Respects view) (hk : k.IsWithin g)
    (hview : view state' = view state) (h : applyCluster g state k rest = .ok (next, left)) :
    ∃ next', applyCluster g state' k rest = .ok (next', left) ∧ view next' = view next := by
  unfold applyCluster at h ⊢
  obtain ⟨⟨argument, left'⟩, hlast, h⟩ := except_bind_eq_ok_iff.mp h
  obtain ⟨flagged, hflags, h⟩ := except_bind_eq_ok_iff.mp h
  obtain ⟨taken, htaken, h⟩ := except_bind_eq_ok_iff.mp h
  obtain ⟨rfl, rfl⟩ := Prod.mk.inj (Except.ok.inj h)
  obtain ⟨flagged', hflags', hview⟩ :=
    exists_foldlM_of_view (fun o ho => hg o (hk.flags o ho)) hview hflags
  obtain ⟨taken', htaken', hview⟩ := hg k.last hk.last hview htaken
  refine ⟨taken', ?_, hview⟩
  exact except_bind_eq_ok_iff.mpr ⟨_, hlast, except_bind_eq_ok_iff.mpr ⟨_, hflags',
    except_bind_eq_ok_iff.mpr ⟨_, htaken', rfl⟩⟩⟩

/-- A flag takes none of the words behind it. -/
theorem applyCluster_flag {set : σ → σ} (ho : o.effect = .flag set) (state : σ) (rest : List (Word σ)) :
    applyCluster g state ⟨[], o, none⟩ rest = .ok (set state, rest) := by
  have hlast : lastArgument g ⟨[], o, none⟩ rest = .ok (none, rest) := by
    unfold lastArgument OptionSpec.takesArgument
    rw [ho]
    rfl
  have htake : o.take none state = .ok (set state) := by
    unfold OptionSpec.take
    rw [ho]
  unfold applyCluster
  rw [hlast]
  show (o.take none state >>= fun state => (.ok (state, rest) : Except Stop (σ × List (Word σ)))) = _
  rw [htake]
  rfl

/-- What has been read is read alike if flags that are not seen are left out, and from any state that looks
the same. The induction is on the rounds. A word that is left out is a flag by itself, since what an option
takes as its argument is no option. -/
theorem exists_areOptions_of_thinned (hg : g.Respects view) {leftOver : List String} {rounds : Nat}
    (hwithin : AreWithin g ws) (h : readOptions g true rounds state ws = .ok ⟨next, leftOver, left⟩) :
    ∃ used, ws = used ++ left ∧ ∀ few state', Thinned (IsIdle view) few used → view state' = view state →
      ∃ next', view next' = view next ∧ AreOptions g state' next' few leftOver := by
  induction rounds generalizing state ws leftOver with
  | zero =>
    obtain ⟨rfl, rfl, rfl⟩ := Reading.mk.inj (Except.ok.inj h)
    refine ⟨[], rfl, fun few state' hthin hview => ?_⟩
    cases hthin
    exact ⟨state', hview, .nil⟩
  | succ rounds ih =>
    have hnone : ∀ few state', Thinned (IsIdle view) few [] → view state' = view state →
        ∃ next', view next' = view state ∧ AreOptions g state' next' few [] := by
      intro few state' hthin hview
      cases hthin
      exact ⟨state', hview, .nil⟩
    cases ws with
    | nil =>
      obtain ⟨rfl, rfl, rfl⟩ := Reading.mk.inj (Except.ok.inj h)
      exact ⟨[], rfl, hnone⟩
    | cons word rest =>
      have hwithin' : AreWithin g rest := fun o name argument hmem =>
        hwithin o name argument (List.mem_cons_of_mem word hmem)
      cases word with
      | plain first =>
        obtain ⟨rfl, rfl, rfl⟩ := Reading.mk.inj (Except.ok.inj h)
        exact ⟨[], rfl, hnone⟩
      | divider =>
        obtain ⟨rfl, rfl, rfl⟩ := Reading.mk.inj (Except.ok.inj h)
        exact ⟨[], rfl, hnone⟩
      | unknown first =>
        rw [readOptions] at h
        obtain ⟨r, hread, h⟩ := except_bind_eq_ok_iff.mp h
        obtain ⟨rfl, rfl, rfl⟩ := Reading.mk.inj (Except.ok.inj h)
        obtain ⟨used, rfl, hused⟩ := ih hwithin' hread
        refine ⟨.unknown first :: used, rfl, fun few state' hthin hview => ?_⟩
        cases hthin with
        | keep _ hthin =>
          obtain ⟨next', hnext, hoptions⟩ := hused _ state' hthin hview
          exact ⟨next', hnext, hoptions.unknown⟩
        | drop hidle _ =>
          obtain ⟨o, name, set, heq, -⟩ := hidle
          contradiction
      | option o name argument =>
        rw [readOptions] at h
        obtain ⟨k, hcluster, h⟩ := except_bind_eq_ok_iff.mp h
        obtain ⟨⟨first, left'⟩, happly, hread⟩ := except_bind_eq_ok_iff.mp h
        have hk := isWithin_of_cluster (hwithin o name argument List.mem_cons_self) hcluster
        obtain ⟨taken, rfl, hplain, hframe⟩ := applyCluster_frame happly
        obtain ⟨used, rfl, hused⟩ := ih (fun o name argument hmem =>
          hwithin' o name argument (List.mem_append_right taken hmem)) hread
        refine ⟨.option o name argument :: (taken ++ used), ?_, fun few state' hthin hview => ?_⟩
        · rw [List.cons_append, List.append_assoc]
        cases hthin with
        | keep _ hthin =>
          obtain ⟨taken', few, rfl, htaken, hfew⟩ := hthin.exists_append
          obtain rfl := htaken.eq_of_forall_not fun word hword hidle => hidle.not_plain (hplain word hword)
          -- what the word makes of a state does not depend on the words behind it
          obtain ⟨first', happly', hfirst⟩ := exists_applyCluster_of_view hg hk hview happly
          obtain ⟨taken', htaken', -, hframe'⟩ := applyCluster_frame happly'
          obtain rfl := List.append_cancel_right htaken'
          obtain ⟨next', hnext, hoptions⟩ := hused few first' hfew hfirst
          exact ⟨next', hnext, .option hcluster hplain.not_divider hframe' hoptions⟩
        | drop hidle hthin =>
          obtain ⟨o', name', set, heq, heffect, hset⟩ := hidle
          obtain ⟨rfl, rfl, rfl⟩ := Word.option.inj heq
          obtain rfl := Except.ok.inj hcluster
          rw [applyCluster_flag heffect] at happly
          obtain ⟨rfl, htaken⟩ := Prod.mk.inj (Except.ok.inj happly)
          have hnil : taken = [] := List.append_left_eq_self.mp htaken
          rw [hnil, List.nil_append] at hthin
          exact hused few state' hthin (hview.trans (hset state).symm)

end ToolchainChoice.CommandLine
