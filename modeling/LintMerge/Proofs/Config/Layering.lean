/-
# Settings in layers

What the command line says is settled first, then what the configuration says, then the defaults
(`Settings.Layered`). A configuration that is accepted and a command line that can be given always
have settings: no layer makes a time that is none or a list of linters that is empty, since what a
layer leaves out, or leaves empty, is filled by the next one. Exclusions are not settled by the
first layer but added up, each once and where it first occurs.

What a linter is run with, beside all that is common to the linters, comes from one table of the
configuration (`Settings.exists_layered`): the program and the further arguments are those that the
table of this linter says, whatever the rest of the configuration and the request say.
-/

import Mathlib.Data.List.Induction
import LintMerge.Proofs.Config.Names
import LintMerge.Proofs.Config.Selection

namespace LintMerge

section EraseDups

variable {α : Type} [DecidableEq α] {as bs : List α} {a : α}

/-- An entry at the end of a list is kept if it is the first of its kind. -/
theorem eraseDups_concat (as : List α) (a : α) :
    (as ++ [a]).eraseDups = if a ∈ as then as.eraseDups else as.eraseDups ++ [a] := by
  rw [List.eraseDups_append, List.removeAll]
  by_cases ha : a ∈ as <;> simp [ha, List.eraseDups_cons]

/-- A list in which nothing occurs twice is kept as it is. -/
theorem eraseDups_of_nodup (h : as.Nodup) : as.eraseDups = as := by
  induction as using List.reverseRecOn with
  | nil => rfl
  | append_singleton as a ih =>
    obtain ⟨has, -, hdisjoint⟩ := List.nodup_append.1 h
    have ha : a ∉ as := fun hmem => hdisjoint a hmem a (List.mem_singleton_self a) rfl
    rw [eraseDups_concat, if_neg ha, ih has]

/-- The entries that are kept of a list start with those that are kept of its front. -/
theorem eraseDups_isPrefix_append (as bs : List α) : as.eraseDups <+: (as ++ bs).eraseDups := by
  rw [List.eraseDups_append]
  exact List.prefix_append _ _

/-- **What is kept of a list stands in the order in which it first occurs.** -/
theorem pairwise_idxOf_eraseDups (as : List α) :
    as.eraseDups.Pairwise fun a b => as.idxOf a < as.idxOf b := by
  induction as using List.reverseRecOn with
  | nil => exact .nil
  | append_singleton as a ih =>
    have hfront : as.eraseDups.Pairwise fun b b' =>
        (as ++ [a]).idxOf b < (as ++ [a]).idxOf b' := by
      refine ih.imp_of_mem fun {b b'} hb hb' hlt => ?_
      rw [List.mem_eraseDups] at hb hb'
      rwa [List.idxOf_append_of_mem hb, List.idxOf_append_of_mem hb']
    rw [eraseDups_concat]
    split
    · exact hfront
    · next ha =>
      refine List.pairwise_append.2 ⟨hfront, List.pairwise_singleton _ _, fun b hb b' hb' => ?_⟩
      obtain rfl := List.mem_singleton.1 hb'
      rw [List.mem_eraseDups] at hb
      rw [List.idxOf_append_of_mem hb, List.idxOf_append_of_notMem ha]
      exact Nat.lt_of_lt_of_le (List.idxOf_lt_length_iff.2 hb) (Nat.le_add_right _ _)

end EraseDups

/-- A list of linters names one at least, and none twice. -/
theorem LinterList.of_parse {s : String} {ls : List Linter} (h : parse s = .ok ls) :
    ls ≠ [] ∧ ls.Nodup := by
  obtain ⟨found, -, h⟩ := Faulty.bind_eq_ok.1 h
  split at h
  · cases h
  · next hsome =>
    cases h
    refine ⟨fun hnil => hsome ?_, Batch.nodup_eraseDups found⟩
    cases found with
    | nil => rfl
    | cons l rest =>
      rw [List.eraseDups_cons] at hnil
      cases hnil

namespace Config

variable {es : List (String × Value)} {c : Config}

/-- The table that the entries of a configuration have for the linter of a name. -/
def tableOf (es : List (String × Value)) (name : String) : Option Value :=
  match Value.lookup "linters" (unifyNames es) with
  | some (.table entries) => Value.lookup name entries
  | _ => none

/-- Linters are listed under their names, in order. -/
theorem names_of_checkLinters {entries : List (String × Value)} {ls : List (Linter × LinterSettings)}
    (h : checkLinters entries = .ok ls) : (ls.map (·.1)).map Linter.name = entries.map (·.1) := by
  rw [checkLinters_eq_ok_iff] at h
  induction h with
  | nil => rfl
  | cons hl _ ih => rw [List.map_cons, List.map_cons, List.map_cons, hl.1, ih]

/-- A configuration lists each linter once. -/
theorem nodup_linters (hc : check es = .ok c) (hkeys : Keyed es) : (c.linters.map (·.1)).Nodup := by
  rcases (parts_of_check hc).1 with ⟨-, hempty⟩ | ⟨entries, hentries, hcheck⟩
  · rw [hempty]
    exact List.nodup_nil
  · exact List.Nodup.of_map _ (names_of_checkLinters hcheck ▸ hkeys entries hentries)

/-- What the table of a linter says, all that it leaves out being as without a table. -/
def said (table : Option Value) : LinterSettings :=
  (table.bind fun v => (LinterSettings.check v).value?).getD {}

/-- What a configuration says of the linter of a name. -/
def settingsOf (c : Config) (name : String) : LinterSettings :=
  ((c.linters.find? fun e => e.1.name = name).map (·.2)).getD {}

/-- **What a configuration says of a linter is what the table of the linter says.** -/
theorem settingsOf_eq (hc : check es = .ok c) (name : String) :
    c.settingsOf name = said (tableOf es name) := by
  rw [settingsOf, said, tableOf]
  rcases (parts_of_check hc).1 with ⟨hnone, hempty⟩ | ⟨entries, hentries, hcheck⟩
  · rw [hnone, hempty]
    rfl
  · rw [hentries]
    dsimp only
    rw [checkLinters_eq_ok_iff] at hcheck
    clear hentries
    generalize c.linters = ls at hcheck
    induction hcheck with
    | nil => rfl
    | @cons e l entries ls hl _ ih =>
      obtain ⟨key, v⟩ := e
      rw [List.find?_cons, Value.lookup]
      by_cases hname : key = name
      · have hfound : (l.1.name = name) := hl.1 ▸ hname
        rw [if_pos hname, decide_eq_true hfound]
        dsimp only
        rw [Option.bind_some, hl.2]
        rfl
      · have hpassed : ¬ l.1.name = name := hl.1 ▸ hname
        rw [if_neg hname, decide_eq_false hpassed]
        exact ih

end Config

namespace Settings

open Config

variable {source : String} {es : List (String × Value)} {c : Config} {path : Option Path} {root : Path}
  {o : Overrides} {s : Settings}

/-- What is looked up under a name among some of the linters is what is said of the linter of this
name, if it is among them. -/
theorem find?_filterMap {β γ : Type} (f : β → Option γ) {ls : List (Linter × β)}
    (hnodup : (ls.map (·.1)).Nodup) (name : String) :
    (((ls.filterMap fun e => (f e.2).map (e.1, ·)).map fun e => (e.1.name, e.2)).find?
      fun e => e.1 = name).map (·.2) = (ls.find? fun e => e.1.name = name).bind fun e => f e.2 := by
  induction ls with
  | nil => rfl
  | cons e rest ih =>
    rw [List.map_cons, List.nodup_cons] at hnodup
    have hrest := ih hnodup.2
    rw [List.find?_cons]
    by_cases hname : e.1.name = name
    · rw [decide_eq_true hname]
      cases hf : f e.2 with
      | none =>
        -- no other linter has the name
        have hnone : (rest.find? fun e => e.1.name = name) = none := by
          refine List.find?_eq_none.2 fun e' he' hname' => hnodup.1 ?_
          rw [← Linter.name_inj ((of_decide_eq_true hname').trans hname.symm)]
          exact List.mem_map_of_mem he'
        rw [List.filterMap_cons_none (by rw [hf]; rfl), hrest, hnone]
        exact hf.symm
      | some b =>
        rw [List.filterMap_cons_some (by rw [hf]; rfl), List.map_cons, List.find?_cons,
          decide_eq_true hname]
        exact hf.symm
    · rw [decide_eq_false hname]
      cases hf : f e.2 with
      | none => rw [List.filterMap_cons_none (by rw [hf]; rfl), hrest]
      | some b =>
        rw [List.filterMap_cons_some (by rw [hf]; rfl), List.map_cons, List.find?_cons,
          decide_eq_false hname]
        exact hrest

/-- The further arguments that are kept are those of the linters that have some. -/
theorem extraArgs_eq (ls : List (Linter × LinterSettings)) :
    (ls.map fun e => (e.1, e.2.args)).filter (!·.2.isEmpty) =
      ls.filterMap fun e => (if e.2.args.isEmpty then none else some e.2.args).map (e.1, ·) := by
  induction ls with
  | nil => rfl
  | cons e rest ih =>
    rw [List.map_cons, List.filter_cons, ih]
    cases hargs : e.2.args.isEmpty with
    | true => rw [List.filterMap_cons_none (by simp [hargs])]; rfl
    | false => rw [List.filterMap_cons_some (by rw [hargs]; rfl)]; rfl

/-- What the command line and a configuration come to, layer by layer. -/
structure Layered (c : Config) (o : Overrides) (s : Settings) : Prop where
  /-- the time that the command line gives, else that of the configuration, else the default -/
  timeout : (s.timeoutMs.1 : Int) = (o.timeoutMs.or (c.timeoutMs.map Int.ofNat)).getD defaultTimeoutMs
  timeout_pos : 0 < s.timeoutMs.1
  /-- the threshold that the command line gives, else that of the configuration, else the default -/
  failOn : s.failOn = (o.failOn.or c.failOn).getD defaultFailOn
  linters_ne_nil : s.linters ≠ []
  linters_nodup : s.linters.Nodup
  /-- the linters that the command line names, in its order -/
  linters_named : ∀ names, o.linters = some names → s.linters.map Linter.name = names
  includes_ne_nil : s.includes ≠ []
  /-- what is never looked at comes first -/
  excludes_default : defaultExclude <+: s.excludes
  excludes_nodup : s.excludes.Nodup
  mem_excludes : ∀ pattern, pattern ∈ s.excludes ↔
    pattern ∈ defaultExclude ∨ pattern ∈ c.excludes.getD [] ∨ pattern ∈ o.excludes
  /-- exclusions stand in the order in which the layers say them first -/
  excludes_ordered : s.excludes.Pairwise fun a b =>
    (defaultExclude ++ c.excludes.getD [] ++ o.excludes).idxOf a <
      (defaultExclude ++ c.excludes.getD [] ++ o.excludes).idxOf b

/-- The names that a list of linters on the command line may come to. -/
def Listed (names : List String) : Prop :=
  ∃ text ls, LinterList.parse text = .ok ls ∧ names = ls.map Linter.name

/-- The linters that are selected: one at least, and none twice. -/
theorem exists_selection (hc : check es = .ok c) (hkeys : Keyed es)
    (hlisted : ∀ names ∈ o.linters, Listed names) :
    ∃ ls, selection c o = ls.map Linter.name ∧ ls ≠ [] ∧ ls.Nodup ∧
      ∀ names, o.linters = some names → ls.map Linter.name = names := by
  rw [selection]
  cases hgiven : o.linters with
  | some names =>
    obtain ⟨text, ls, hparse, rfl⟩ := hlisted names hgiven
    obtain ⟨hne, hnodup⟩ := LinterList.of_parse hparse
    refine ⟨ls, ?_, hne, hnodup, fun names h => Option.some.inj h⟩
    exact eraseDups_of_nodup (hnodup.map fun _ _ h => Linter.name_inj h)
  | none =>
    refine ⟨_, rfl, ?_, ?_, fun names h => by cases h⟩
    · split
      · decide
      · next hsome => exact fun h => hsome (List.isEmpty_iff.2 h)
    · split
      · decide
      · exact (nodup_linters hc hkeys).sublist (List.filter_sublist.map _)

theorem includes_ne_nil (c : Config) :
    (if (c.includes.getD []).isEmpty then defaultInclude else c.includes.getD []) ≠ [] := by
  split
  · exact List.cons_ne_nil _ _
  · next hsome => exact fun h => hsome (List.isEmpty_iff.2 h)

/-- The program and the further arguments that a batch with some settings hands to the linter of a
name are those that the configuration says for it. -/
theorem handed_eq (hc : check es = .ok c) (hkeys : Keyed es) (hs : resolve root ⟨path, c⟩ o = .ok s)
    (files : List Path) (name : String) :
    (Command.batchOf s files).binOf name = (c.settingsOf name).bin.filter (· ≠ "") ∧
      (Command.batchOf s files).extraArgsOf name = (c.settingsOf name).args := by
  have hnodup := nodup_linters hc hkeys
  obtain ⟨_, _, hmap, -, rfl⟩ := Checked.seq_eq_ok.1 hs
  obtain ⟨_, -, rfl⟩ := Checked.map_eq_ok.1 hmap
  have hbin := find?_filterMap (fun s : LinterSettings => s.bin.filter (· ≠ "")) hnodup name
  have hargs := find?_filterMap
    (fun s : LinterSettings => if s.args.isEmpty then none else some s.args) hnodup name
  rw [← extraArgs_eq] at hargs
  constructor
  · rw [Batch.Options.binOf, settingsOf]
    refine hbin.trans ?_
    cases c.linters.find? fun e => e.1.name = name <;> rfl
  · rw [Batch.Options.extraArgsOf, settingsOf]
    refine (congrArg (·.getD []) hargs).trans ?_
    cases c.linters.find? fun e => e.1.name = name with
    | none => rfl
    | some e =>
      rw [Option.bind_some, Option.map_some, Option.getD_some]
      split
      · next hempty => exact (List.isEmpty_iff.1 hempty).symm
      · rfl

/-- **Settings are layered.** Whatever configuration is accepted and whatever the command line says,
there are settings, in which the layers come one before the other. What a batch with these settings
hands to the linter of a name, beside what is common to the linters, is told by the one table that
the configuration has for it. -/
theorem exists_layered (source : String) (es : List (String × Value)) (c : Config) (path : Option Path)
    (root : Path) (o : Overrides) (hc : ofEntries source es = .ok c) (hkeys : Keyed es)
    (hlisted : ∀ names ∈ o.linters, Listed names) (htimeout : ∀ n ∈ o.timeoutMs, 1 ≤ n) :
    ∃ s, resolve root ⟨path, c⟩ o = .ok s ∧ Layered c o s ∧
      ∀ files name,
        ((Command.batchOf s files).invocationFor name).bin =
          (said (tableOf es name)).bin.filter (· ≠ "") ∧
        ((Command.batchOf s files).invocationFor name).extraArgs = (said (tableOf es name)).args := by
  rw [ofEntries_eq_ok_iff] at hc
  obtain ⟨ls, hselection, hne, hnodup, hnamed⟩ := exists_selection hc hkeys hlisted
  have hpos := timeout_pos hc htimeout
  obtain ⟨k, hk⟩ := exists_positive hpos
  have hitems := items_names ls
  rw [← hselection] at hitems
  have hs : resolve root ⟨path, c⟩ o = .ok _ := Checked.seq_eq_ok.2 ⟨_, k,
    Checked.map_eq_ok.2 ⟨ls, Checked.under_eq_ok.2 hitems, rfl⟩, Checked.under_eq_ok.2 hk, rfl⟩
  refine ⟨_, hs, ?_, fun files name => ?_⟩
  · have hvalue : ((k.1 : Nat) : Int) = timeout c o := by
      obtain ⟨n, hn, h⟩ := Checked.andThen_eq_ok.1 hk
      cases hn
      rw [dif_pos hpos] at h
      cases h
      exact Int.toNat_of_nonneg (Int.le_of_lt hpos)
    exact {
      timeout := hvalue.trans (timeout_eq hc)
      timeout_pos := k.2
      failOn := by cases o.failOn <;> rfl
      linters_ne_nil := hne
      linters_nodup := hnodup
      linters_named := hnamed
      includes_ne_nil := includes_ne_nil c
      excludes_default := by
        rw [List.append_assoc]
        exact eraseDups_isPrefix_append defaultExclude _
      excludes_nodup := Batch.nodup_eraseDups _
      mem_excludes := fun pattern => by
        rw [List.mem_eraseDups, List.mem_append, List.mem_append, or_assoc]
      excludes_ordered := pairwise_idxOf_eraseDups _ }
  · rw [← settingsOf_eq hc]
    exact handed_eq hc hkeys hs files name

namespace Sample

/-- The entries of a configuration with a time, an exclusion that stands twice and a table. -/
def entries : List (String × Value) :=
  [("timeout", .int 5000), ("exclude", .list [.text "gen/**", .text "**/dist/**"]),
    ("linters", .table [("eslint", .table [("bin", .text "./lint"), ("args", .list [.text "--cache"])])])]

/-- The configuration of the entries. -/
def config : Config where
  linters := [(.eslint, { bin := some "./lint", args := ["--cache"] })]
  excludes := some ["gen/**", "**/dist/**"]
  timeoutMs := some 5000

/-- A command line that gives the time that is the default, two linters and two exclusions. -/
def overrides : Overrides where
  linters := some ["tsc", "eslint"]
  timeoutMs := some 30000
  excludes := ["tmp", "gen/**"]

theorem ofEntries_entries : ofEntries "inline" entries = .ok config := by decide +kernel

theorem keyed_entries : Keyed entries := by
  intro table htable
  obtain ⟨e, hstanding, hkey, hvalue⟩ := lookup_unifyNames_iff.1 htable
  have hmem := hstanding.mem
  rw [entries, List.mem_cons, List.mem_cons, List.mem_singleton] at hmem
  rcases hmem with rfl | rfl | rfl
  · exact absurd hkey (by decide +kernel)
  · exact absurd hkey (by decide +kernel)
  · cases hvalue
    decide

theorem listed_overrides : ∀ names ∈ overrides.linters, Listed names := by
  intro names hnames
  cases hnames
  exact ⟨"tsc, eslint,tsc", [.tsc, .eslint], by decide +kernel, rfl⟩

end Sample

/-- The hypotheses of `exists_layered` hold together: the time that the command line gives counts
although it is the default, and each exclusion is kept once. -/
theorem exists_layered_sample : ofEntries "inline" Sample.entries = .ok Sample.config ∧
    Keyed Sample.entries ∧ (∀ names ∈ Sample.overrides.linters, Listed names) ∧
    (∀ n ∈ Sample.overrides.timeoutMs, 1 ≤ n) ∧
    ∃ s, resolve ⟨1, ["project"]⟩ ⟨none, Sample.config⟩ Sample.overrides = .ok s ∧
      s.timeoutMs.1 = 30000 ∧ "tmp" ∈ s.excludes ∧ s.excludes.Nodup ∧
      s.linters.map Linter.name = ["tsc", "eslint"] := by
  have htimeout : ∀ n ∈ Sample.overrides.timeoutMs, 1 ≤ n := by
    intro n hn
    cases hn
    decide
  obtain ⟨s, hs, hlayered, -⟩ := exists_layered "inline" Sample.entries Sample.config none
    ⟨1, ["project"]⟩ Sample.overrides Sample.ofEntries_entries Sample.keyed_entries
    Sample.listed_overrides htimeout
  exact ⟨Sample.ofEntries_entries, Sample.keyed_entries, Sample.listed_overrides, htimeout, s, hs,
    Int.natCast_inj.1 hlayered.timeout, (hlayered.mem_excludes _).2 (.inr (.inr List.mem_cons_self)),
    hlayered.excludes_nodup, hlayered.linters_named _ rfl⟩

end Settings
end LintMerge
