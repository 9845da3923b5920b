/-
# Which linters a configuration selects

Where the command line names no linters, the configuration selects those that it lists and does not
disable, and no others: so a linter that it disables is not run, as long as it enables any
(`Settings.mem_linters_iff`). A configuration that enables none, because it lists none or because
it disables all that it lists, selects nothing, and the default linters are run in the place of
nothing. A linter that is disabled is then selected after all if it is one of them, although what a
configuration says comes before the defaults (`Settings.not_disabled`).
-/

import LintMerge.Command.Lint
import LintMerge.Proofs.Batch.Supply

namespace LintMerge

theorem Linter.ofName?_eq_some_iff {name : String} {l : Linter} :
    ofName? name = some l ↔ name = l.name := by
  constructor
  · intro h
    rw [ofName?] at h
    have hname := List.find?_some h
    exact (of_decide_eq_true hname).symm
  · rintro rfl
    exact l.ofName?_name

theorem Linter.name_inj {l l' : Linter} (h : l.name = l'.name) : l = l' :=
  Option.some.inj (l.ofName?_name.symm.trans (Linter.ofName?_eq_some_iff.2 h))

/-- What a value says of one linter is whether it is enabled, which it is where nothing is said of
this. -/
theorem LinterSettings.truth_of_check {v : Value} {s : LinterSettings} (h : check v = .ok s) :
    Check.truth (v.fieldOr "enabled" (.bool true)) = .ok s.enabled := by
  cases v with
  | table entries =>
    rw [check, Check.record, Checked.also_eq_ok] at h
    simp only [Checked.seq_eq_ok, Checked.map_eq_ok] at h
    obtain ⟨⟨_, _, ⟨_, _, ⟨enabled, henabled, rfl⟩, -, rfl⟩, -, rfl⟩, -⟩ := h
    rw [Value.fieldOr]
    rcases Check.defaulted_plain_eq_ok.1 henabled with ⟨hnone, rfl⟩ | ⟨v, hv, htruth⟩
    · rw [hnone]
      rfl
    · rw [hv]
      exact htruth
  | _ => exact absurd h Checked.refuse_ne_ok

namespace Config

variable {source : String} {es : List (String × Value)} {c : Config} {l : Linter}

theorem checkName_eq_ok_iff {name : String} : checkName name = .ok l ↔ name = l.name := by
  rw [← Linter.ofName?_eq_some_iff, checkName]
  cases Linter.ofName? name <;> simp

/-- The linters of a configuration are those that its entries name, each with what is said of it. -/
theorem checkLinters_eq_ok_iff {entries : List (String × Value)} {ls : List (Linter × LinterSettings)} :
    checkLinters entries = .ok ls ↔
      List.Forall₂ (fun e s => e.1 = s.1.name ∧ LinterSettings.check e.2 = .ok s.2) entries ls := by
  induction entries generalizing ls with
  | nil => rw [checkLinters, List.forall₂_nil_left_iff, Checked.ok.injEq, eq_comm]
  | cons e rest ih =>
    obtain ⟨name, v⟩ := e
    simp only [checkLinters, Checked.seq_eq_ok, Checked.map_eq_ok, Checked.under_eq_ok,
      checkName_eq_ok_iff, ih]
    constructor
    · rintro ⟨_, more, ⟨_, s, ⟨l, hname, rfl⟩, hs, rfl⟩, hmore, rfl⟩
      exact .cons ⟨hname, hs⟩ hmore
    · rintro (_ | ⟨⟨hname, hs⟩, hmore⟩)
      exact ⟨_, _, ⟨_, _, ⟨_, hname, rfl⟩, hs, rfl⟩, hmore, rfl⟩

theorem ofEntries_eq_ok_iff : ofEntries source es = .ok c ↔ check es = .ok c := by
  rw [ofEntries]
  cases check es <;> simp

/-- Whether a configuration says that a linter is enabled: it lists the linter, and says so, or says
nothing where the question is whether it is. -/
def Says (es : List (String × Value)) (l : Linter) (enabled : Bool) : Prop :=
  ∃ entries v, Value.lookup "linters" (unifyNames es) = some (.table entries) ∧
    (l.name, v) ∈ entries ∧ Check.truth (v.fieldOr "enabled" (.bool true)) = .ok enabled

/-- A table of linters has each key once, as all tables of a text do. -/
def Keyed (es : List (String × Value)) : Prop :=
  ∀ entries, Value.lookup "linters" (unifyNames es) = some (.table entries) →
    (entries.map (·.1)).Nodup

/-- A number that may be absent and is accepted as one above zero is above zero. -/
theorem positive_of_optional {v : Value} {x : Option Nat} {n : Nat}
    (h : Check.optional (fun v => (Check.positive v).map (·.1)) v = .ok x) (hn : n ∈ x) : 0 < n := by
  unfold Check.optional at h
  split at h
  · cases h
    cases hn
  · obtain ⟨k, hk, rfl⟩ := Checked.map_eq_ok.1 h
    obtain ⟨k, -, rfl⟩ := Checked.map_eq_ok.1 hk
    exact Option.some.inj hn ▸ k.2

/-- The parts of a configuration that tell which linters run, and for how long. -/
theorem parts_of_check (h : check es = .ok c) :
    ((Value.lookup "linters" (unifyNames es) = none ∧ c.linters = []) ∨
      ∃ entries, Value.lookup "linters" (unifyNames es) = some (.table entries) ∧
        checkLinters entries = .ok c.linters) ∧
    ∀ n ∈ c.timeoutMs, 0 < n := by
  rw [check] at h
  simp only [Checked.also_eq_ok, Checked.seq_eq_ok, Checked.map_eq_ok] at h
  obtain ⟨⟨_, _, ⟨_, _, ⟨_, _, ⟨_, _, ⟨ls, hlinters, rfl⟩, -, rfl⟩, -, rfl⟩, htimeout, rfl⟩, -, rfl⟩, -⟩ := h
  constructor
  · rcases Check.defaulted_plain_eq_ok.1 hlinters with ⟨hnone, rfl⟩ | ⟨v, hv, hcheck⟩
    · exact .inl ⟨hnone, rfl⟩
    · cases v with
      | table entries => exact .inr ⟨entries, hv, hcheck⟩
      | _ => exact absurd hcheck Checked.refuse_ne_ok
  · intro n hn
    rcases Check.defaulted_plain_eq_ok.1 htimeout with ⟨-, rfl⟩ | ⟨v, -, hv⟩
    · cases hn
    · exact positive_of_optional hv hn

/-- The linters of a configuration are those of which its entries say whether they are enabled. -/
theorem exists_mem_linters_iff (hc : check es = .ok c) {enabled : Bool} :
    (∃ s, (l, s) ∈ c.linters ∧ s.enabled = enabled) ↔ Says es l enabled := by
  rcases (parts_of_check hc).1 with ⟨hnone, hempty⟩ | ⟨entries, hentries, hcheck⟩
  · rw [hempty]
    constructor
    · rintro ⟨s, hs, -⟩
      cases hs
    · rintro ⟨entries, v, hentries, -⟩
      cases hnone.symm.trans hentries
  · have hall := checkLinters_eq_ok_iff.1 hcheck
    constructor
    · rintro ⟨s, hs, rfl⟩
      obtain ⟨⟨name, v⟩, he, rfl, hv⟩ := exists_of_forall₂ hall.flip hs
      exact ⟨entries, v, hentries, he, LinterSettings.truth_of_check hv⟩
    · rintro ⟨entries', v, hentries', he, htruth⟩
      cases hentries.symm.trans hentries'
      obtain ⟨⟨l', s⟩, hs, hname, hv⟩ := exists_of_forall₂ hall he
      obtain rfl := Linter.name_inj hname
      exact ⟨s, hs, Checked.ok.inj ((LinterSettings.truth_of_check hv).symm.trans htruth)⟩

/-- A linter is enabled when the entries of the configuration say that it is. -/
theorem mem_enabledLinters_iff (hc : check es = .ok c) : l ∈ c.enabledLinters ↔ Says es l true := by
  rw [← exists_mem_linters_iff hc, enabledLinters, List.mem_map]
  constructor
  · rintro ⟨⟨_, s⟩, hs, rfl⟩
    obtain ⟨hmem, henabled⟩ := List.mem_filter.1 hs
    exact ⟨s, hmem, henabled⟩
  · rintro ⟨s, hs, henabled⟩
    exact ⟨(l, s), List.mem_filter.2 ⟨hs, henabled⟩, rfl⟩

/-- What a configuration says of a linter is one thing. -/
theorem Says.unique {enabled enabled' : Bool} (hkeys : Keyed es) (h : Says es l enabled)
    (h' : Says es l enabled') : enabled = enabled' := by
  obtain ⟨entries, v, hentries, hv, htruth⟩ := h
  obtain ⟨entries', v', hentries', hv', htruth'⟩ := h'
  cases hentries.symm.trans hentries'
  cases List.inj_on_of_nodup_map (hkeys entries hentries) hv hv' rfl
  exact Checked.ok.inj (htruth.symm.trans htruth')

end Config

namespace Settings

open Config

variable {source : String} {es : List (String × Value)} {c : Config} {path : Option Path}
  {root : Path} {o : Overrides} {s : Settings}

/-- Names of linters are read as the linters. -/
theorem items_names (ls : List Linter) :
    Checked.items (Check.named .notNamed Linter.name Linter.all) ((ls.map Linter.name).map .text) =
      .ok ls := by
  rw [Checked.items, Checked.itemsFrom_eq_ok, List.map_map, List.forall₂_map_left_iff,
    List.forall₂_same]
  intro l _
  rw [Function.comp_apply, Check.named, show Linter.all.find? (fun a => a.name = l.name) = some l from
    l.ofName?_name]

/-- Where the command line names no linters the settings have those of the configuration, or else
the default ones. -/
theorem linters_of_resolve (ho : o.linters = none) (hs : resolve root ⟨path, c⟩ o = .ok s) :
    s.linters = if c.enabledLinters.isEmpty then Linter.defaults else c.enabledLinters := by
  rw [resolve, selection, ho] at hs
  simp only [items_names] at hs
  obtain ⟨_, _, hmap, -, rfl⟩ := Checked.seq_eq_ok.1 hs
  obtain ⟨_, hlinters, rfl⟩ := Checked.map_eq_ok.1 hmap
  exact (Checked.ok.inj hlinters).symm

theorem exists_positive {n : Int} (hn : 0 < n) : ∃ k, Check.positive (.int n) = .ok k :=
  ⟨⟨n.toNat, by omega⟩, Checked.andThen_eq_ok.2 ⟨n, rfl, dif_pos hn⟩⟩

/-- A time that a configuration gives is never taken for none, as no accepted one is zero. -/
theorem timeout_eq (hc : check es = .ok c) :
    timeout c o = (o.timeoutMs.or (c.timeoutMs.map Int.ofNat)).getD defaultTimeoutMs := by
  rw [timeout]
  cases o.timeoutMs with
  | some n => rfl
  | none =>
    cases hsaid : c.timeoutMs with
    | some n =>
      have hpos : n ≠ 0 := Nat.ne_of_gt ((parts_of_check hc).2 n hsaid)
      rw [Option.filter_some, if_pos (decide_eq_true hpos)]
      rfl
    | none => rfl

theorem timeout_pos (hc : check es = .ok c) (htimeout : ∀ n ∈ o.timeoutMs, 0 < n) : 0 < timeout c o := by
  rw [timeout_eq hc]
  cases hgiven : o.timeoutMs with
  | some n => exact htimeout n hgiven
  | none =>
    cases hsaid : c.timeoutMs with
    | some n => exact Int.natCast_pos.2 ((parts_of_check hc).2 n hsaid)
    | none => decide

/-- Settings are refused for the time only that the command line gives. -/
theorem exists_resolve (hc : check es = .ok c) (ho : o.linters = none)
    (htimeout : ∀ n ∈ o.timeoutMs, 0 < n) : ∃ s, resolve root ⟨path, c⟩ o = .ok s := by
  obtain ⟨k, hk⟩ := exists_positive (timeout_pos hc htimeout)
  rw [resolve, selection, ho]
  simp only [items_names]
  exact ⟨_, Checked.seq_eq_ok.2 ⟨_, k, Checked.map_eq_ok.2 ⟨_, rfl, rfl⟩, Checked.under_eq_ok.2 hk, rfl⟩⟩

/-- The linters that are selected: those that the configuration enables, or the default ones where
it enables none. -/
theorem mem_linters_iff (hc : check es = .ok c) (ho : o.linters = none)
    (hs : resolve root ⟨path, c⟩ o = .ok s) {l : Linter} :
    l ∈ s.linters ↔ Says es l true ∨ (∀ l', ¬ Says es l' true) ∧ l ∈ Linter.defaults := by
  have hnone : c.enabledLinters = [] ↔ ∀ l', ¬ Says es l' true := by
    rw [List.eq_nil_iff_forall_not_mem]
    exact forall_congr' fun l' => not_congr (mem_enabledLinters_iff hc)
  rw [linters_of_resolve ho hs, ← hnone, ← mem_enabledLinters_iff hc]
  split
  · next hempty =>
    rw [List.isEmpty_iff] at hempty
    simp [hempty]
  · next hsome =>
    rw [List.isEmpty_iff] at hsome
    simp [hsome]

/-- **A linter that is disabled is not selected while another is enabled.** Where the command line
names no linters there are settings, unless it gives a time that is none. A linter that the
configuration disables is then selected exactly when the configuration enables none at all and the
linter is one of the default ones. No program is run for a linter that is not selected, by any
batch with these settings. -/
theorem disabled_mem_linters_iff (source : String) (es : List (String × Value)) (c : Config)
    (path : Option Path) (root : Path) (o : Overrides) (hc : ofEntries source es = .ok c)
    (hkeys : Keyed es) (ho : o.linters = none) :
    ((∀ n ∈ o.timeoutMs, 0 < n) → ∃ s, resolve root ⟨path, c⟩ o = .ok s) ∧
    ∀ s, resolve root ⟨path, c⟩ o = .ok s →
      (∀ l, Says es l false →
        (l ∈ s.linters ↔ (∀ l', ¬ Says es l' true) ∧ l ∈ Linter.defaults)) ∧
      ∀ h reg t r files p ss p', Batch.start h reg t (Command.batchOf s files) = .ok p →
        Batch.Goes h t (Command.batchOf s files) r p ss p' →
        ∀ call ∈ Job.calls ss, ∃ k ∈ reg.orBuiltin.tools,
          k.linter ∈ s.linters ∧ Batch.CallFor h (Command.batchOf s files) k call := by
  rw [ofEntries_eq_ok_iff] at hc
  refine ⟨exists_resolve hc ho, fun s hs => ⟨fun l hl => ?_, ?_⟩⟩
  · rw [mem_linters_iff hc ho hs, or_iff_right]
    intro henabled
    cases hl.unique hkeys henabled
  · intro h reg t r files p ss p' hp hg call hcall
    obtain ⟨k, hk, hlinter, hfor⟩ := Batch.call_of_start hp hg call hcall
    exact ⟨k, hk, List.mem_eraseDups.1 hlinter, hfor⟩

/-- A table that says of some linters whether they are enabled. -/
def listing (ls : List (Linter × Bool)) : List (String × Value) :=
  ls.map fun x => (x.1.name, .table [("enabled", .bool x.2)])

/-- The entries of a configuration that says of some linters whether they are enabled. -/
def saying (ls : List (Linter × Bool)) : List (String × Value) := [("linters", .table (listing ls))]

theorem unifyNames_saying (ls : List (Linter × Bool)) : unifyNames (saying ls) = saying ls := by
  have hname : "linters".map (fun c => if c = '-' then '_' else c) = "linters" := by
    rw [← String.toList_inj, String.toList_map]
    decide
  rw [saying, unifyNames, List.foldl_cons, List.foldl_nil]
  dsimp only
  rw [hname]
  rfl

theorem lookup_saying (ls : List (Linter × Bool)) :
    Value.lookup "linters" (unifyNames (saying ls)) = some (.table (listing ls)) := by
  rw [unifyNames_saying]
  rfl

theorem checkLinters_listing (ls : List (Linter × Bool)) :
    checkLinters (listing ls) = .ok (ls.map fun x => (x.1, { enabled := x.2 })) := by
  rw [checkLinters_eq_ok_iff, listing, List.forall₂_map_left_iff, List.forall₂_map_right_iff,
    List.forall₂_same]
  exact fun x _ => ⟨rfl, rfl⟩

/-- Such a configuration is accepted, whichever linters it lists. -/
theorem check_saying (ls : List (Linter × Bool)) : check (saying ls) =
    .ok { linters := ls.map fun x => (x.1, { enabled := x.2 }) } := by
  have hlinters := checkLinters_listing ls
  rw [check, unifyNames_saying, Checked.also_eq_ok]
  simp only [Checked.seq_eq_ok, Checked.map_eq_ok, Check.defaulted_plain_eq_ok]
  exact ⟨⟨_, _, ⟨_, _, ⟨_, _, ⟨_, _, ⟨_, .inr ⟨_, rfl, hlinters⟩, rfl⟩, .inl ⟨rfl, rfl⟩, rfl⟩,
    .inl ⟨rfl, rfl⟩, rfl⟩, .inl ⟨rfl, rfl⟩, rfl⟩, .inl ⟨rfl, rfl⟩, rfl⟩, rfl⟩

theorem says_saying {ls : List (Linter × Bool)} {x : Linter × Bool} (hx : x ∈ ls) :
    Says (saying ls) x.1 x.2 :=
  ⟨listing ls, .table [("enabled", .bool x.2)], lookup_saying ls, List.mem_map.2 ⟨x, hx, rfl⟩, rfl⟩

theorem keyed_saying {ls : List (Linter × Bool)} (h : (ls.map (·.1.name)).Nodup) :
    Keyed (saying ls) := by
  intro entries hentries
  cases (lookup_saying ls).symm.trans hentries
  rw [listing, List.map_map]
  exact h

/-- The hypotheses of `disabled_mem_linters_iff` hold together: of two linters one is disabled, and
it is not selected. -/
theorem disabled_mem_linters_iff_two :
    ∃ c, ofEntries "inline" (saying [(.eslint, true), (.oxlint, false)]) = .ok c ∧
      Keyed (saying [(.eslint, true), (.oxlint, false)]) ∧
      ∃ s, resolve ⟨1, ["project"]⟩ ⟨none, c⟩ {} = .ok s ∧ .oxlint ∉ s.linters := by
  have hc : ofEntries "inline" (saying [(.eslint, true), (.oxlint, false)]) = .ok _ :=
    ofEntries_eq_ok_iff.2 (check_saying _)
  have hkeys : Keyed (saying [(.eslint, true), (.oxlint, false)]) := keyed_saying (by decide)
  obtain ⟨hexists, hall⟩ := disabled_mem_linters_iff _ _ _ none ⟨1, ["project"]⟩ {} hc hkeys rfl
  obtain ⟨s, hs⟩ := hexists nofun
  refine ⟨_, hc, hkeys, s, hs, fun hmem => ?_⟩
  exact (((hall s hs).1 _ (says_saying (.tail _ (.head _)))).1 hmem).1 _ (says_saying (.head _))

/-- **A linter that is disabled alone is selected.** The configuration lists one linter, which it
disables, and nothing else. -/
theorem not_disabled : ¬ ∀ (source : String) (es : List (String × Value)) (c : Config)
    (path : Option Path) (root : Path) (o : Overrides) (s : Settings) (l : Linter),
    ofEntries source es = .ok c → Keyed es → o.linters = none → resolve root ⟨path, c⟩ o = .ok s →
    Says es l false → l ∉ s.linters := by
  intro h
  have hc := check_saying [(.eslint, false)]
  have hexists : ∃ s, resolve ⟨1, ["project"]⟩ ⟨none, _⟩ {} = .ok s := exists_resolve hc rfl nofun
  obtain ⟨s, hs⟩ := hexists
  refine h "inline" _ _ _ _ _ s .eslint (ofEntries_eq_ok_iff.2 hc)
    (keyed_saying (by decide)) rfl hs (says_saying (.head _)) ?_
  rw [linters_of_resolve rfl hs]
  decide

end Settings
end LintMerge
