/-
# A configuration to start from is read back

The text of a configuration that says of each of some linters whether it runs is a document with
what holds anyway and one table for each linter (`Config.entries_template`). The entries are
accepted as a configuration that says just this (`Config.check_template`).
-/

import LintMerge.Config.Template
import LintMerge.Proofs.Config.Names
import LintMerge.Proofs.Config.Selection
import LintMerge.Proofs.Text.Boundaries
import LintMerge.Proofs.Toml.Lines

namespace LintMerge

namespace Value

variable {key : String} {v w : Value} {es : List (String × Value)}

theorem lookup_of_not_mem (h : key ∉ es.map (·.1)) : lookup key es = none := by
  induction es with
  | nil => rfl
  | cons e rest ih =>
    rw [List.map_cons, List.mem_cons, not_or] at h
    rw [lookup, if_neg (Ne.symm h.1), ih h.2]

theorem lookup_concat (h : key ∉ es.map (·.1)) : lookup key (es ++ [(key, v)]) = some v := by
  rw [← insert_of_not_mem h, lookup_insert_self]

/-- The last entry of a table is overwritten in its place. -/
theorem insert_concat (h : key ∉ es.map (·.1)) : insert key w (es ++ [(key, v)]) = es ++ [(key, w)] := by
  induction es with
  | nil => simp [insert]
  | cons e rest ih =>
    rw [List.map_cons, List.mem_cons, not_or] at h
    rw [List.cons_append, insert, if_neg (Ne.symm h.1), ih h.2, List.cons_append]

end Value

namespace Config

open Settings (listing checkLinters_listing)

/-- What holds anyway. -/
def defaultEntries : List (String × Value) :=
  [("include", .list (defaultInclude.map .text)), ("exclude", .list []),
    ("timeout", .int defaultTimeoutMs), ("fail_on", .text defaultFailOn.name)]

/-- The entries of a configuration that says of some linters whether they run. -/
def templateEntries (enabled : List (Linter × Bool)) : List (String × Value) :=
  defaultEntries ++ if enabled = [] then [] else [("linters", .table (listing enabled))]

/-! ### The lines of the text -/

/-- The lines that say what holds anyway. -/
def defaultLines : List String :=
  ["# lintmesh configuration",
    "include = " ++ templateList defaultInclude,
    "exclude = []",
    s!"timeout = {defaultTimeoutMs}",
    "fail_on = " ++ templateString defaultFailOn.name]

/-- The lines of a configuration that says of some linters whether they run. -/
def templateLines (enabled : List (Linter × Bool)) : List String :=
  defaultLines ++ enabled.flatMap fun x => templateTable x.1.name x.2

/-- Lines with a line feed between each two and after the last one are lines that are ended. -/
theorem toList_intercalate (line : String) (lines : List String) :
    ("\n".intercalate (line :: lines) ++ "\n").toList = Toml.ended ((line :: lines).map String.toList) := by
  induction lines generalizing line with
  | nil => simp [Toml.ended, String.intercalate_singleton]
  | cons next more ih =>
    have hnext := ih next
    rw [String.toList_append] at hnext
    rw [String.intercalate_cons_cons, List.map_cons, Toml.ended_cons, ← hnext]
    simp

theorem toList_template (enabled : List (Linter × Bool)) :
    (template enabled).toList = Toml.ended ((templateLines enabled).map String.toList) :=
  toList_intercalate _ _

/-! ### Reading them -/

/-- The state of reading after the lines that say what holds anyway. -/
def defaultState : Toml.State where
  entries := defaultEntries
  closed := [["exclude"], ["include"]]

theorem turns_include : Toml.Turns {} ("include = " ++ templateList defaultInclude).toList
    { entries := defaultEntries.take 1, closed := [["include"]] } := by
  have hline : ("include = " ++ templateList defaultInclude).toList =
      "include".toList ++ ' ' :: '=' :: ' ' :: '[' :: '"' :: (sourceGlob.toList ++ ['"', ']']) := by
    decide +kernel
  rw [hline]
  refine Toml.turns_assign "include" _ (v := .list (defaultInclude.map .text)) (by decide)
    (fun fuel rest => ?_) (fun rest => rfl) rfl rfl
  rw [List.cons_append, List.cons_append, List.append_assoc]
  exact Toml.value_singleton (by decide +kernel) (List.all_iff_forall_prop.1 (by decide +kernel)) (fuel + 1)

theorem turns_exclude : Toml.Turns { entries := defaultEntries.take 1, closed := [["include"]] }
    "exclude = []".toList { entries := defaultEntries.take 2, closed := [["exclude"], ["include"]] } :=
  Toml.turns_assign "exclude" "[]".toList (v := .list []) (by decide)
    (fun _ _ => rfl) (fun _ => rfl) rfl rfl

theorem turns_timeout :
    Toml.Turns { entries := defaultEntries.take 2, closed := [["exclude"], ["include"]] }
      s!"timeout = {defaultTimeoutMs}".toList
      { entries := defaultEntries.take 3, closed := [["exclude"], ["include"]] } :=
  Toml.turns_assign "timeout" "30000".toList (v := .int 30000) (by decide)
    (fun _ _ => rfl) (fun _ => rfl) rfl rfl

theorem turns_failOn :
    Toml.Turns { entries := defaultEntries.take 3, closed := [["exclude"], ["include"]] }
      ("fail_on = " ++ templateString defaultFailOn.name).toList defaultState :=
  Toml.turns_assign "fail_on" "\"error\"".toList (v := .text "error") (by decide)
    (fun _ _ => rfl) (fun _ => rfl) rfl rfl

theorem run_defaultLines : Toml.Run {} (defaultLines.map String.toList) defaultState :=
  .cons (Toml.turns_comment (s := " lintmesh configuration".toList) _
      (List.all_iff_forall_prop.1 (by decide +kernel)))
    (.cons turns_include (.cons turns_exclude (.cons turns_timeout (.cons turns_failOn .nil))))

/-- The state of reading after the tables of some linters. -/
structure After (done : List (Linter × Bool)) (st : Toml.State) : Prop where
  entries : st.entries = templateEntries done
  closed : st.closed = [["exclude"], ["include"]]
  pending : st.pending = []
  declared : ∀ l : Linter, ["linters", l.name] ∈ st.declared → l ∈ done.map (·.1)

theorem after_nil : After [] defaultState where
  entries := rfl
  closed := rfl
  pending := rfl
  declared _ hl := absurd hl List.not_mem_nil

theorem linters_not_mem : "linters" ∉ defaultEntries.map (·.1) := by decide

section Table

variable {done : List (Linter × Bool)} {st : Toml.State} {l : Linter}

theorem name_not_mem (hl : l ∉ done.map (·.1)) : l.name ∉ (listing done).map (·.1) := by
  rw [listing, List.map_map, List.mem_map]
  rintro ⟨x, hx, hname⟩
  exact hl (List.mem_map.2 ⟨x, hx, Linter.name_inj hname⟩)

/-- The table of the linters, where something is changed in it. -/
theorem changeAt_linters {inner : List (String × Value)} {key : Toml.Key}
    {f : List (String × Value) → Option (List (String × Value))}
    (h : Toml.changeAt true f key (listing done) = some inner) :
    Toml.changeAt true f ("linters" :: key) (templateEntries done) =
      some (defaultEntries ++ [("linters", .table inner)]) := by
  rw [templateEntries]
  split
  · next hnil =>
    rw [hnil] at h
    rw [List.append_nil, Toml.changeAt, Value.lookup_of_not_mem linters_not_mem]
    show (Toml.changeAt true f key (listing [])).map _ = _
    rw [h, Option.map_some, Value.insert_of_not_mem linters_not_mem]
  · rw [Toml.changeAt, Value.lookup_concat linters_not_mem]
    show (Toml.changeAt true f key (listing done)).map _ = _
    rw [h, Option.map_some, Value.insert_concat linters_not_mem]

/-- The entries with an empty table for a linter. -/
def withEmpty (done : List (Linter × Bool)) (l : Linter) : List (String × Value) :=
  defaultEntries ++ [("linters", .table (listing done ++ [(l.name, .table [])]))]

/-- A linter gets a table. -/
theorem makes_table (hl : l ∉ done.map (·.1)) :
    Toml.changeAt true some ["linters", l.name] (templateEntries done) = some (withEmpty done l) := by
  refine changeAt_linters ?_
  rw [Toml.changeAt, Value.lookup_of_not_mem (name_not_mem hl)]
  show some (Value.insert l.name (.table []) (listing done)) = _
  rw [Value.insert_of_not_mem (name_not_mem hl)]

/-- The table says whether the linter runs. -/
theorem fills_table (hl : l ∉ done.map (·.1)) (flag : Bool) :
    Toml.changeAt true (Toml.addEntry "enabled" (.bool flag)) ["linters", l.name] (withEmpty done l) =
      some (templateEntries (done ++ [(l, flag)])) := by
  have hinner : Toml.changeAt true (Toml.addEntry "enabled" (.bool flag)) [l.name]
      (listing done ++ [(l.name, .table [])]) = some (listing (done ++ [(l, flag)])) := by
    rw [Toml.changeAt, Value.lookup_concat (name_not_mem hl)]
    show some (Value.insert l.name (.table [("enabled", .bool flag)]) _) = _
    rw [Value.insert_concat (name_not_mem hl), listing, listing, List.map_append]
    rfl
  rw [withEmpty, Toml.changeAt, Value.lookup_concat linters_not_mem]
  show (Toml.changeAt true _ [l.name] (listing done ++ [(l.name, .table [])])).map _ = _
  rw [hinner, Option.map_some, Value.insert_concat linters_not_mem, templateEntries, if_neg (by simp)]

theorem bare_name (l : Linter) : Toml.Bare l.name := by cases l <;> decide

theorem covers_linters (l : Linter) : Toml.covers [["exclude"], ["include"]] ["linters", l.name] = false :=
  rfl

/-- The lines of a table that says of a linter whether it runs. -/
theorem map_templateTable (l : Linter) (flag : Bool) : (templateTable l.name flag).map String.toList =
    [[], '[' :: ("linters".toList ++ '.' :: (l.name.toList ++ [']'])),
      "enabled".toList ++ ' ' :: '=' :: ' ' :: (if flag then "true" else "false").toList] := by
  cases l <;> cases flag <;> decide +kernel

/-- **The table of a linter** is read where there is none of the linter yet. -/
theorem run_templateTable (h : After done st) (hl : l ∉ done.map (·.1)) (flag : Bool) :
    ∃ st', Toml.Run st ((templateTable l.name flag).map String.toList) st' ∧
      After (done ++ [(l, flag)]) st' := by
  have hhead : Toml.Turns st ('[' :: ("linters".toList ++ '.' :: (l.name.toList ++ [']'])))
      (st.withTable ["linters", l.name] (withEmpty done l)) :=
    Toml.turns_table (by decide) (bare_name l) h.pending (fun hmem => hl (h.declared l hmem))
      (h.closed ▸ covers_linters l) (h.entries ▸ makes_table hl)
  have hflag : Toml.Turns (st.withTable ["linters", l.name] (withEmpty done l))
      ("enabled".toList ++ ' ' :: '=' :: ' ' :: (if flag then "true" else "false").toList)
      ((st.withTable ["linters", l.name] (withEmpty done l)).withEntry "enabled" (.bool flag)
        (templateEntries (done ++ [(l, flag)]))) := by
    refine Toml.turns_assign "enabled" _ (by decide) (fun fuel rest => ?_) (fun rest => ?_)
      (h.closed ▸ covers_linters l) (fills_table hl flag)
    · cases flag <;> rfl
    · cases flag <;> rfl
  rw [map_templateTable]
  refine ⟨_, .cons (Toml.turns_blank st) (.cons hhead (.cons hflag .nil)), ?_⟩
  constructor
  · rfl
  · exact h.closed
  · exact h.pending
  · intro l' hl'
    rw [List.map_append, List.mem_append]
    rcases List.mem_cons.1 hl' with heq | hmem
    · rw [Linter.name_inj (List.cons_eq_cons.1 (List.cons_eq_cons.1 heq).2).1]
      exact .inr (List.mem_singleton_self l)
    · exact .inl (h.declared l' hmem)

/-- The tables of linters, each of which has one, are read one after the other. -/
theorem run_templateTables {enabled : List (Linter × Bool)} (h : After done st)
    (hnodup : ((done ++ enabled).map (·.1)).Nodup) :
    ∃ st', Toml.Run st ((enabled.flatMap fun x => templateTable x.1.name x.2).map String.toList) st' ∧
      After (done ++ enabled) st' := by
  induction enabled generalizing done st with
  | nil => exact ⟨st, .nil, by rwa [List.append_nil]⟩
  | cons x rest ih =>
    obtain ⟨l, flag⟩ := x
    have hl : l ∉ done.map (·.1) := by
      rw [List.map_append, List.nodup_append] at hnodup
      exact fun hmem => hnodup.2.2 l hmem l List.mem_cons_self rfl
    obtain ⟨st', hrun, hst'⟩ := run_templateTable h hl flag
    rw [List.append_cons] at hnodup ⊢
    obtain ⟨st'', hrun', hst''⟩ := ih hst' hnodup
    refine ⟨st'', ?_, hst''⟩
    rw [List.flatMap_cons, List.map_append]
    exact hrun.append hrun'

end Table

/-- **The text of a configuration is read back**: what holds anyway, and of each linter whether it
runs. -/
theorem entries_template {enabled : List (Linter × Bool)} (hnodup : (enabled.map (·.1)).Nodup) :
    Toml.entries (template enabled).toList = .ok (templateEntries enabled) := by
  obtain ⟨st, hrun, hst⟩ := run_templateTables after_nil hnodup
  rw [toList_template, templateLines, List.map_append,
    Toml.entries_of_run (run_defaultLines.append hrun), hst.entries]
  rfl

/-! ### The octets of the text -/

/-- A character of a line that has one octet and is no control character. -/
def Plain (c : Char) : Prop := 32 ≤ c.toNat ∧ c.toNat < 127

instance : DecidablePred Plain := fun c => inferInstanceAs (Decidable (32 ≤ c.toNat ∧ c.toNat < 127))

/-- A line of such characters. -/
def IsPlain (line : String) : Prop := ∀ c ∈ line.toList, Plain c

instance : DecidablePred IsPlain := fun line =>
  decidable_of_iff _ (List.all_iff_forall_prop (l := line.toList))

theorem plain_templateLines {enabled : List (Linter × Bool)} {line : String}
    (hline : line ∈ templateLines enabled) : IsPlain line := by
  rcases List.mem_append.1 hline with hline | hline
  · have hall : ∀ line ∈ defaultLines, IsPlain line := by decide +kernel
    exact hall line hline
  · obtain ⟨⟨l, flag⟩, -, hline⟩ := List.mem_flatMap.1 hline
    have hall : ∀ line ∈ templateTable l.name flag, IsPlain line := by
      cases l <;> cases flag <;> decide +kernel
    exact hall line hline

theorem plain_template {enabled : List (Linter × Bool)} {c : Char} (hc : c ∈ (template enabled).toList) :
    c = '\n' ∨ Plain c := by
  rw [toList_template, Toml.ended, List.mem_flatMap] at hc
  obtain ⟨_, hended, hc⟩ := hc
  obtain ⟨line, hline, rfl⟩ := List.mem_map.1 hended
  rcases List.mem_append.1 hc with hc | hc
  · exact .inr (plain_templateLines hline c hc)
  · exact .inl (List.mem_singleton.1 hc)

theorem unifyLines_of_not_mem {s : List Char} (h : '\r' ∉ s) : Toml.unifyLines s = s := by
  induction s with
  | nil => rfl
  | cons c s ih =>
    rw [List.mem_cons, not_or] at h
    rw [Toml.unifyLines, ih h.2]
    rintro _ rfl _
    exact h.1 rfl

/-- **A file that holds the text** is read as the entries. -/
theorem readFile_template {enabled : List (Linter × Bool)} {read : Reading} {path : Path}
    (hnodup : (enabled.map (·.1)).Nodup)
    (hread : read path = .ok (Text.Utf8.encode (template enabled).toList)) :
    readFile read path = .ok (templateEntries enabled) := by
  have hascii : Text.Utf8.IsAscii (template enabled).toList := by
    intro c hc
    rcases plain_template hc with rfl | hplain
    · decide
    · exact Nat.lt_succ_of_lt hplain.2
  have hfeeds : '\r' ∉ (template enabled).toList := by
    intro hmem
    rcases plain_template hmem with heq | hplain
    · cases heq
    · exact absurd hplain (by decide)
  refine Faulty.bind_eq_ok.2 ⟨_, Faulty.mapError_eq_ok.2 hread, ?_⟩
  rw [readToml, Text.Utf8.decode_encode hascii]
  simp only [unifyLines_of_not_mem hfeeds, entries_template hnodup]

/-! ### What the entries say -/

/-- The configuration that says of some linters whether they run, and what holds anyway. -/
def templateConfig (enabled : List (Linter × Bool)) : Config where
  linters := enabled.map fun x => (x.1, { enabled := x.2 })
  includes := some defaultInclude
  excludes := some []
  timeoutMs := some defaultTimeoutMs
  failOn := some defaultFailOn

/-- The names of the entries, in order. -/
def templateKeys : List String := ["include", "exclude", "timeout", "fail_on", "linters"]

theorem keys_sublist (enabled : List (Linter × Bool)) :
    ((templateEntries enabled).map (·.1)).Sublist templateKeys := by
  rw [templateEntries]
  split
  · exact List.sublist_append_left _ ["linters"]
  · exact List.Sublist.refl _

theorem unifyNames_template (enabled : List (Linter × Bool)) :
    unifyNames (templateEntries enabled) = templateEntries enabled := by
  have hnames : ∀ key ∈ templateKeys, unified key = key := by decide +kernel
  refine unifyNames_eq_self (fun e he => ?_) ((keys_sublist enabled).nodup (by decide))
  exact hnames _ ((keys_sublist enabled).subset (List.mem_map_of_mem he))

/-- Of linters the entries say nothing where there are none, and else whether they run. -/
theorem lookup_linters (enabled : List (Linter × Bool)) :
    (Value.lookup "linters" (templateEntries enabled) = none ∧ [] = (templateConfig enabled).linters) ∨
      Value.lookup "linters" (templateEntries enabled) = some (.table (listing enabled)) := by
  rw [templateEntries]
  split
  · next hnil =>
    rw [hnil, List.append_nil]
    exact .inl ⟨Value.lookup_of_not_mem linters_not_mem, rfl⟩
  · exact .inr (Value.lookup_concat linters_not_mem)

theorem unexpected_template (enabled : List (Linter × Bool)) :
    Check.unexpected ["linters", "include", "exclude", "timeout", "fail_on"] (templateEntries enabled) =
      [] := by
  have hknown : ∀ key ∈ templateKeys,
      ["linters", "include", "exclude", "timeout", "fail_on"].contains key = true := by
    decide
  rw [Check.unexpected, List.map_eq_nil_iff, List.filter_eq_nil_iff]
  intro e he
  rw [hknown _ ((keys_sublist enabled).subset (List.mem_map_of_mem he))]
  decide

/-- **The entries are accepted** as a configuration that says what they say. -/
theorem check_template (enabled : List (Linter × Bool)) :
    check (templateEntries enabled) = .ok (templateConfig enabled) := by
  rw [check, unifyNames_template, Checked.also_eq_ok]
  simp only [Checked.seq_eq_ok, Checked.map_eq_ok, Check.defaulted_plain_eq_ok]
  refine ⟨⟨_, _, ⟨_, _, ⟨_, _, ⟨_, _, ⟨_, ?_, rfl⟩, .inr ⟨_, rfl, rfl⟩, rfl⟩,
    .inr ⟨_, rfl, rfl⟩, rfl⟩, .inr ⟨_, rfl, rfl⟩, rfl⟩, .inr ⟨_, rfl, rfl⟩, rfl⟩, unexpected_template enabled⟩
  exact (lookup_linters enabled).imp_right fun hlookup =>
    ⟨.table (listing enabled), hlookup, checkLinters_listing enabled⟩

end Config
end LintMerge
