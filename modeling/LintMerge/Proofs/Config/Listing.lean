/-
# Which texts list linters

The items of a text are what stands between its commas, without the white space around it and in
small letters (`LinterList.item`); those that are empty do not count. A text lists linters exactly
if it has an item and each item is the name of a linter. It lists them in the order in which their
names first occur (`LinterList.Lists`), and otherwise the first item that no linter has for a name
is what is said of it (`LinterList.FirstUnknown`).

How a text is spelled makes no difference, whether it lists linters or not: its ASCII letters may be
written small or large, white space may stand around its items, parts may be empty, and an item may
come again after it has come once (`LinterList.Respells`).
-/

import Mathlib.Logic.Relation
import LintMerge.Proofs.Config.Layering
import LintMerge.Proofs.Text.Spelling

namespace LintMerge

/-- A computation over the items of a list ends with the fault of the first one that has a fault. -/
theorem Faulty.mapM_eq_error_iff {ε α β : Type} {f : α → Except ε β} {as : List α} {e : ε} :
    as.mapM f = .error e ↔ ∃ front a back, as = front ++ a :: back ∧
      (∀ b ∈ front, ∃ v, f b = .ok v) ∧ f a = .error e := by
  induction as with
  | nil =>
    refine ⟨fun h => (by cases h), ?_⟩
    rintro ⟨front, a, back, h, -⟩
    exact absurd h.symm (List.append_ne_nil_of_right_ne_nil _ (List.cons_ne_nil _ _))
  | cons a as ih =>
    rw [List.mapM_cons, bind_eq_error]
    constructor
    · rintro (h | ⟨v, hv, h⟩)
      · exact ⟨[], a, as, rfl, fun _ hb => absurd hb List.not_mem_nil, h⟩
      · have hrest := (bind_eq_error.1 h).resolve_right fun ⟨_, _, h⟩ => by cases h
        obtain ⟨front, a', back, rfl, hfront, ha'⟩ := ih.1 hrest
        exact ⟨a :: front, a', back, rfl, List.forall_mem_cons.2 ⟨⟨v, hv⟩, hfront⟩, ha'⟩
    · rintro ⟨front, a', back, has, hfront, ha'⟩
      cases front with
      | nil =>
        obtain ⟨rfl, rfl⟩ := List.cons.inj has
        exact .inl ha'
      | cons b front =>
        obtain ⟨rfl, rfl⟩ := List.cons.inj has
        obtain ⟨⟨v, hv⟩, hfront⟩ := List.forall_mem_cons.1 hfront
        exact .inr ⟨v, hv, bind_eq_error.2 (.inl (ih.2 ⟨front, a', back, rfl, hfront, ha'⟩))⟩

namespace LinterList

variable {s t n : String} {ns : List String} {ls : List Linter} {f : Fault}

/-- What stands between two commas, without the white space around it and in small letters. -/
def item (part : List Char) : String := String.ofList (Text.lower (Text.trim part))

/-- A name that a linter has. -/
def IsKnown (n : String) : Prop := ∃ l : Linter, n = l.name

/-- A name that no linter has, and the first one of these. -/
def FirstUnknown (ns : List String) (n : String) : Prop :=
  ∃ front back, ns = front ++ n :: back ∧ (∀ m ∈ front, IsKnown m) ∧ ¬ IsKnown n

/-- Linters have the names of a list, and stand in the order in which their names first occur. -/
structure Lists (ns : List String) (ls : List Linter) : Prop where
  mem_iff : ∀ n, n ∈ ns ↔ ∃ l ∈ ls, n = l.name
  ordered : ls.Pairwise fun k l => ns.idxOf k.name < ns.idxOf l.name

/-- The linters of some names, each once. -/
def ofNames (ns : List String) : Except Fault (List Linter) := do
  let found ← ns.mapM linter
  if found.isEmpty then throw .empty else return found.eraseDups

theorem parse_eq (s : String) : parse s = ofNames (names s) := rfl

theorem linter_name (l : Linter) : linter l.name = .ok l := by
  rw [linter, Linter.ofName?_name]

theorem linter_eq_ok_iff {l : Linter} : linter n = .ok l ↔ n = l.name := by
  rw [← Linter.ofName?_eq_some_iff, linter]
  cases Linter.ofName? n <;> simp

theorem linter_eq_error_iff : linter n = .error f ↔ ¬ IsKnown n ∧ f = .unknown n := by
  have hknown : IsKnown n ↔ ∃ l, Linter.ofName? n = some l := by
    simp only [IsKnown, Linter.ofName?_eq_some_iff]
  rw [hknown, linter]
  cases Linter.ofName? n <;> simp [eq_comm]

/-- Names are read one by one, if each is the name of a linter. -/
theorem mapM_linter_eq_ok_iff : ns.mapM linter = .ok ls ↔ ns = ls.map Linter.name := by
  simp only [Faulty.mapM_eq_ok, linter_eq_ok_iff]
  rw [← List.forall₂_map_right_iff, List.forall₂_eq_eq_eq]

/-- **The first name that no linter has** is the fault of a list of names. -/
theorem mapM_linter_eq_error_iff :
    ns.mapM linter = .error f ↔ ∃ n, FirstUnknown ns n ∧ f = .unknown n := by
  have hknown (m : String) : (∃ l, linter m = .ok l) ↔ IsKnown m := by
    simp only [linter_eq_ok_iff, IsKnown]
  simp only [Faulty.mapM_eq_error_iff, hknown, linter_eq_error_iff, FirstUnknown]
  constructor
  · rintro ⟨front, n, back, hns, hfront, hn, hf⟩
    exact ⟨n, ⟨front, back, hns, hfront, hn⟩, hf⟩
  · rintro ⟨n, ⟨front, back, hns, hfront, hn⟩, hf⟩
    exact ⟨front, n, back, hns, hfront, hn, hf⟩

theorem ofNames_map_name (ls : List Linter) :
    ofNames (ls.map Linter.name) = if ls = [] then .error .empty else .ok ls.eraseDups := by
  rw [ofNames, mapM_linter_eq_ok_iff.2 rfl]
  cases ls <;> rfl

/-- A list of names has no linters if there is no name, or one that no linter has. -/
theorem ofNames_eq_error_iff :
    ofNames ns = .error f ↔ (ns = [] ∧ f = .empty) ∨ ∃ n, FirstUnknown ns n ∧ f = .unknown n := by
  rw [ofNames, Faulty.bind_eq_error, mapM_linter_eq_error_iff, or_comm]
  refine or_congr_left ⟨?_, ?_⟩
  · rintro ⟨ls, hls, h⟩
    obtain rfl := mapM_linter_eq_ok_iff.1 hls
    split at h
    · next hnil =>
      cases h
      rw [List.isEmpty_iff.1 hnil]
      exact ⟨rfl, rfl⟩
    · cases h
  · rintro ⟨rfl, rfl⟩
    exact ⟨[], rfl, rfl⟩

theorem idxOf_map_name (ls : List Linter) (l : Linter) :
    (ls.map Linter.name).idxOf l.name = ls.idxOf l := by
  have hsame : (fun n : String => n == l.name) ∘ Linter.name = fun k => k == l := by
    funext k
    rw [Function.comp_apply, Bool.eq_iff_iff, beq_iff_eq, beq_iff_eq]
    exact ⟨Linter.name_inj, congrArg Linter.name⟩
  rw [List.idxOf, List.idxOf, List.findIdx_map, hsame]

/-- Linters, each kept where it first occurs, are those that their names list. -/
theorem lists_eraseDups (ls : List Linter) : Lists (ls.map Linter.name) ls.eraseDups where
  mem_iff n := by simp [eq_comm]
  ordered := by
    simp only [idxOf_map_name]
    exact pairwise_idxOf_eraseDups ls

theorem Lists.nodup (h : Lists ns ls) : ls.Nodup :=
  h.ordered.imp fun hlt heq => absurd (heq ▸ hlt) (Nat.lt_irrefl _)

/-- Names list the same linters in one way only. -/
theorem Lists.unique {ls' : List Linter} (h : Lists ns ls) (h' : Lists ns ls') : ls = ls' := by
  have hmem {ks : List Linter} (hks : Lists ns ks) (l : Linter) : l ∈ ks ↔ l.name ∈ ns := by
    rw [hks.mem_iff]
    refine ⟨fun hl => ⟨l, hl, rfl⟩, ?_⟩
    rintro ⟨k, hk, hname⟩
    rwa [Linter.name_inj hname]
  have hperm : ls.Perm ls' := (List.perm_ext_iff_of_nodup h.nodup h'.nodup).2 fun l => by
    rw [hmem h, hmem h']
  exact hperm.eq_of_pairwise (fun _ _ _ _ hlt hgt => absurd hlt (Nat.lt_asymm hgt)) h.ordered
    h'.ordered

theorem lists_of_ofNames (h : ofNames ns = .ok ls) : ls ≠ [] ∧ Lists ns ls := by
  obtain ⟨found, hfound, -⟩ := Faulty.bind_eq_ok.1 h
  obtain rfl := mapM_linter_eq_ok_iff.1 hfound
  rw [ofNames_map_name] at h
  split at h
  · cases h
  · next hne =>
    cases h
    refine ⟨fun hnil => hne (List.eq_nil_iff_forall_not_mem.2 fun l hl => ?_), lists_eraseDups found⟩
    rw [← List.mem_eraseDups, hnil] at hl
    exact List.not_mem_nil hl

/-- **The linters of a list of names** are one at least, and those that the names list. -/
theorem ofNames_eq_ok_iff : ofNames ns = .ok ls ↔ ls ≠ [] ∧ Lists ns ls := by
  refine ⟨lists_of_ofNames, fun ⟨hne, h⟩ => ?_⟩
  cases hns : ofNames ns with
  | ok ls' => rw [h.unique (lists_of_ofNames hns).2]
  | error f =>
    exfalso
    rcases ofNames_eq_error_iff.1 hns with ⟨rfl, -⟩ | ⟨n, ⟨front, back, rfl, -, hn⟩, -⟩
    · refine hne (List.eq_nil_iff_forall_not_mem.2 fun l hl => ?_)
      exact List.not_mem_nil ((h.mem_iff l.name).2 ⟨l, hl, rfl⟩)
    · obtain ⟨l, -, rfl⟩ := (h.mem_iff n).1 (List.mem_append_right front List.mem_cons_self)
      exact hn ⟨l, rfl⟩

/-- **A name that comes again** after it has come once makes no difference. -/
theorem ofNames_again {front : List String} (hn : n ∈ front) (back : List String) :
    ofNames (front ++ n :: back) = ofNames (front ++ back) := by
  cases hfront : front.mapM linter with
  | error f =>
    simp only [ofNames, List.mapM_append, hfront]
    rfl
  | ok ks =>
    obtain rfl := mapM_linter_eq_ok_iff.1 hfront
    obtain ⟨l, hl, rfl⟩ := List.mem_map.1 hn
    cases hback : back.mapM linter with
    | error f =>
      simp only [ofNames, List.mapM_append, List.mapM_cons, hfront, linter_name, hback]
      rfl
    | ok ls =>
      obtain rfl := mapM_linter_eq_ok_iff.1 hback
      have hkept : (ks ++ l :: ls).eraseDups = (ks ++ ls).eraseDups := by
        rw [List.eraseDups_append, List.eraseDups_append, List.removeAll, List.removeAll,
          List.filter_cons_of_neg (by simpa using hl)]
      have hsome (ms : List Linter) : ks ++ ms ≠ [] :=
        List.append_ne_nil_of_left_ne_nil (List.ne_nil_of_mem hl) ms
      rw [← List.map_cons, ← List.map_append, ← List.map_append, ofNames_map_name, ofNames_map_name,
        if_neg (hsome _), if_neg (hsome _), hkept]

theorem names_eq (s : String) :
    names s = ((Text.splitOn ',' s.toList).map item).filter (· ≠ "") := rfl

/-- A text of parts, with commas between them. -/
def ofParts (parts : List (List Char)) : String := String.ofList (Text.joinWith [','] parts)

/-- The names in each of some parts, one after the other. -/
def namesOf (parts : List (List Char)) : List String :=
  parts.flatMap fun part => names (String.ofList part)

theorem namesOf_append (parts parts' : List (List Char)) :
    namesOf (parts ++ parts') = namesOf parts ++ namesOf parts' :=
  List.flatMap_append

theorem namesOf_cons (part : List Char) (parts : List (List Char)) :
    namesOf (part :: parts) = names (String.ofList part) ++ namesOf parts :=
  List.flatMap_cons

/-- The names in a text of parts are those in its parts. -/
theorem names_ofParts (parts : List (List Char)) : names (ofParts parts) = namesOf parts := by
  cases parts with
  | nil => decide
  | cons part parts =>
    rw [names_eq, ofParts, String.toList_ofList, Text.splitOn_joinWith ',' (List.cons_ne_nil _ _)]
    simp only [namesOf, names_eq, String.toList_ofList, List.map_flatMap, List.filter_flatMap]

/-- A part between two commas has one item, or none if nothing is left of it. -/
theorem names_part {part : List Char} (hpart : ',' ∉ part) :
    names (String.ofList part) = if item part = "" then [] else [item part] := by
  rw [names_eq, String.toList_ofList, Text.splitOn_of_not_mem hpart]
  simp [List.filter_cons]

theorem item_pad {left right : List Char} (hleft : ∀ c ∈ left, Text.isBlank c = true)
    (hright : ∀ c ∈ right, Text.isBlank c = true) (part : List Char) :
    item (left ++ part ++ right) = item part := by
  rw [item, Text.trim_pad hleft hright, item]

theorem item_map_toLower (part : List Char) : item (part.map Char.toLower) = item part := by
  rw [item, Text.trim_map Text.isBlank_toLower, Text.lower_map_toLower, item]

theorem names_map_toLower (s : String) :
    names (String.ofList (s.toList.map Char.toLower)) = names s := by
  have hcomma : ∀ c : Char, c.toLower = ',' ↔ c = ',' := Text.toLower_eq_iff (by decide) (by decide)
  rw [names_eq, names_eq, String.toList_ofList, Text.splitOn_map hcomma, List.map_map]
  simp only [Function.comp_def, item_map_toLower]

/-- A text is spelled in another way. -/
inductive Respells : String → String → Prop where
  /-- ASCII letters may be small or large -/
  | recase {s t : String} (h : s.toList.map Char.toLower = t.toList.map Char.toLower) : Respells s t
  /-- white space may stand around an item -/
  | pad {front back : List (List Char)} {part left right : List Char} (hpart : ',' ∉ part)
      (hleft : ∀ c ∈ left, Text.isBlank c = true) (hright : ∀ c ∈ right, Text.isBlank c = true) :
      Respells (ofParts (front ++ part :: back)) (ofParts (front ++ (left ++ part ++ right) :: back))
  /-- a part may be empty -/
  | skip {front back : List (List Char)} :
      Respells (ofParts (front ++ back)) (ofParts (front ++ [] :: back))
  /-- an item may come again -/
  | again {front between back : List (List Char)} {part part' : List Char} (hpart : ',' ∉ part)
      (hpart' : ',' ∉ part') (h : item part' = item part) :
      Respells (ofParts (front ++ part :: (between ++ back)))
        (ofParts (front ++ part :: (between ++ part' :: back)))

/-- **The spelling of a text makes no difference.** -/
theorem Respells.parse_eq (h : Respells s t) : parse t = parse s := by
  rw [LinterList.parse_eq, LinterList.parse_eq]
  cases h with
  | recase h => rw [← names_map_toLower t, ← h, names_map_toLower s]
  | @pad front back part left right hpart hleft hright =>
    have hcomma {cs : List Char} (hcs : ∀ c ∈ cs, Text.isBlank c = true) : ',' ∉ cs := fun hmem =>
      absurd (hcs ',' hmem) (by decide)
    have hpadded : ',' ∉ left ++ part ++ right := by
      simp only [List.mem_append, hpart, hcomma hleft, hcomma hright, or_self, not_false_eq_true]
    simp only [names_ofParts, namesOf_append, namesOf_cons, names_part hpart,
      names_part hpadded, item_pad hleft hright]
  | skip =>
    have hnone : names (String.ofList []) = [] := by decide
    simp only [names_ofParts, namesOf_append, namesOf_cons, hnone, List.nil_append]
  | @again front between back part part' hpart hpart' h =>
    simp only [names_ofParts, namesOf_append, namesOf_cons, names_part hpart,
      names_part hpart', h]
    split
    · rfl
    · have hmem : item part ∈ namesOf front ++ item part :: namesOf between := by
        simp only [List.mem_append, List.mem_cons, true_or, or_true]
      have hagain := ofNames_again hmem (namesOf back)
      simpa only [List.append_assoc, List.cons_append, List.nil_append] using hagain

/-- The names of linters are items as they stand. -/
theorem names_name (l : Linter) : names (String.ofList l.name.toList) = [l.name] := by
  cases l <;> decide

theorem intercalate_eq_ofParts (ns : List String) :
    ",".intercalate ns = ofParts (ns.map String.toList) := by
  have hjoin (parts : List (List Char)) : ",".toList.intercalate parts = Text.joinWith [','] parts := by
    induction parts with
    | nil => rfl
    | cons part parts ih =>
      cases parts with
      | nil => exact List.intercalate_singleton
      | cons part' parts => rw [List.intercalate_cons_cons, Text.joinWith_cons_cons, ih]; rfl
  rw [← String.toList_inj, String.toList_intercalate, hjoin, ofParts, String.toList_ofList]

/-- **The names of linters**, with commas between them, list these linters. -/
theorem parse_intercalate (hne : ls ≠ []) (hls : ls.Nodup) :
    parse (",".intercalate (ls.map Linter.name)) = .ok ls := by
  have hnames : names (",".intercalate (ls.map Linter.name)) = ls.map Linter.name := by
    rw [intercalate_eq_ofParts, names_ofParts, namesOf, List.map_map, List.flatMap_map,
      ← List.flatMap_pure_eq_map]
    exact congrArg (ls.flatMap ·) (funext names_name)
  rw [LinterList.parse_eq, hnames, ofNames_map_name, if_neg hne, eraseDups_of_nodup hls]

/-- What is said of a name that no linter has. -/
theorem message_unknown (n : String) :
    (Fault.unknown n).message = "Unknown linter '" ++ n ++ "'. Valid: eslint, oxlint, biome, tsc" := by
  have hvalid : "'. Valid: eslint, oxlint, biome, tsc" =
      "'. Valid: " ++ ", ".intercalate (Linter.all.map Linter.name) := by decide +kernel
  rw [hvalid, ← String.append_assoc]
  unfold Fault.message
  exact rfl

/-- **Which texts list linters.** A text has a fault exactly if it has no item, or one that is the name
of no linter; the first such item is what is said of it. Otherwise it lists the linters that its items
name, each once and in the order in which they first occur. The names of these linters, with commas
between them, list the same linters, and so does the text when it is spelled in another way, or in
another way once more. -/
theorem parse_exact (s : String) :
    ((∃ f, parse s = .error f) ↔ names s = [] ∨ ∃ n ∈ names s, ¬ IsKnown n) ∧
    (∀ n, FirstUnknown (names s) n → parse s = .error (.unknown n) ∧
      (Fault.unknown n).message = "Unknown linter '" ++ n ++ "'. Valid: eslint, oxlint, biome, tsc") ∧
    (∀ ls, parse s = .ok ls ↔ ls ≠ [] ∧ Lists (names s) ls) ∧
    (∀ ls, parse s = .ok ls → parse (",".intercalate (ls.map Linter.name)) = .ok ls) ∧
    ∀ t, Relation.EqvGen Respells s t → parse t = parse s := by
  refine ⟨⟨?_, ?_⟩, fun n hn => ⟨?_, message_unknown n⟩, fun ls => ?_, fun ls hls => ?_, fun t ht => ?_⟩
  · rintro ⟨f, hf⟩
    rcases ofNames_eq_error_iff.1 hf with ⟨hnil, -⟩ | ⟨n, ⟨front, back, hns, -, hn⟩, -⟩
    · exact .inl hnil
    · exact .inr ⟨n, hns ▸ List.mem_append_right front List.mem_cons_self, hn⟩
  · rintro (hnil | ⟨n, hn, hunknown⟩)
    · exact ⟨.empty, ofNames_eq_error_iff.2 (.inl ⟨hnil, rfl⟩)⟩
    · cases hs : parse s with
      | error f => exact ⟨f, rfl⟩
      | ok ls =>
        obtain ⟨l, -, hname⟩ := ((lists_of_ofNames hs).2.mem_iff n).1 hn
        exact absurd ⟨l, hname⟩ hunknown
  · exact ofNames_eq_error_iff.2 (.inr ⟨n, hn, rfl⟩)
  · exact ofNames_eq_ok_iff
  · obtain ⟨hne, hlists⟩ := ofNames_eq_ok_iff.1 hls
    exact parse_intercalate hne hlists.nodup
  · induction ht with
    | rel s t h => exact h.parse_eq
    | refl s => rfl
    | symm s t _ ih => exact ih.symm
    | trans s t u _ _ ih ih' => exact ih'.trans ih

example : parse " ESLint,,tsc , eslint" = .ok [.eslint, .tsc] := by decide +kernel

end LinterList
end LintMerge
