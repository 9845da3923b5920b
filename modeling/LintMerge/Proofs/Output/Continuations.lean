/-
# On how many lines a record is told

The message of a record joins the text of its header and the lines that go on with it, each of
them on a line of its own, and the white space around all of it does not count. A line that goes on
is not blank, so nothing of it is lost but its own white space: it is the text of the header alone
that leaves no line when it is blank (`Finding.count_message`). The path and the rule of the issue
stand on one line, as they stood in the header (`Reading.oneLine`).
-/

import LintMerge.Proofs.Output.Records

namespace LintMerge

namespace Text

variable {s t first : List Char} {c : Char}

theorem dropWhile_isBlank_eq_nil_iff : s.dropWhile isBlank = [] ↔ ∀ c ∈ s, isBlank c = true := by
  induction s with
  | nil => simp
  | cons c s ih =>
    rw [List.dropWhile_cons, List.forall_mem_cons, ← ih]
    split
    · next hc => exact (and_iff_right hc).symm
    · next hc => exact iff_of_false (List.cons_ne_nil _ _) fun h => hc h.1

/-- A text that is not blank ends with its last character that is not white space. -/
theorem getLast?_trimEnd (h : ∃ c ∈ s, isBlank c = false) :
    ∃ c, (trimEnd s).getLast? = some c ∧ isBlank c = false := by
  have hfirst := List.head?_dropWhile_not isBlank s.reverse
  rw [trimEnd, List.getLast?_reverse]
  cases hrest : s.reverse.dropWhile isBlank with
  | nil =>
    obtain ⟨c, hc, hblank⟩ := h
    have hall := dropWhile_isBlank_eq_nil_iff.1 hrest c (List.mem_reverse.2 hc)
    rw [hblank] at hall
    cases hall
  | cons c rest =>
    rw [hrest] at hfirst
    exact ⟨c, rfl, hfirst⟩

/-- Of a text with a front that is not blank the white space at the start is that of the front. -/
theorem trimStart_append (h : ∃ c ∈ s, isBlank c = false) (t : List Char) :
    trimStart (s ++ t) = trimStart s ++ t := by
  obtain ⟨c, hc, hblank⟩ := h
  have hsome : s.dropWhile isBlank ≠ [] := fun hnil => by
    rw [dropWhile_isBlank_eq_nil_iff.1 hnil c hc] at hblank
    cases hblank
  rw [trimStart, List.dropWhile_append, if_neg (by simpa using hsome), trimStart]

theorem trimStart_append_of_blank (h : ∀ c ∈ s, isBlank c = true) (t : List Char) :
    trimStart (s ++ t) = trimStart t := by
  rw [trimStart, List.dropWhile_append, dropWhile_isBlank_eq_nil_iff.2 h, if_pos List.isEmpty_nil,
    trimStart]

/-- Nothing is lost at the end of a text that ends with a character that is not white space. -/
theorem trim_of_getLast? (h : s.getLast? = some c) (hc : isBlank c = false) : trim s = trimStart s := by
  obtain ⟨front, rfl⟩ := List.getLast?_eq_some_iff.1 h
  rw [trim]
  refine trimEnd_of_getLast? fun d hd => ?_
  have hlast : (trimStart (front ++ [c])).getLast? = some c := by
    rw [trimStart, List.dropWhile_append]
    split
    · rw [List.dropWhile_cons_of_neg (by rw [hc]; exact Bool.false_ne_true)]
      rfl
    · exact List.getLast?_concat
  rw [hlast] at hd
  exact Option.some.inj hd ▸ hc

theorem count_trimStart_of_not_mem (h : '\n' ∉ s) : (trimStart s).count '\n' = 0 :=
  List.count_eq_zero.2 fun hmem => h ((List.dropWhile_suffix isBlank).subset hmem)

/-- Joined lines end as the last of them does. -/
theorem getLast?_joinWith {sep : List Char} {ls : List (List Char)} {l : List Char}
    (hl : ls.getLast? = some l) (hc : l.getLast? = some c) : (joinWith sep ls).getLast? = some c := by
  induction ls with
  | nil => cases hl
  | cons l' more ih =>
    cases more with
    | nil =>
      rw [← Option.some.inj hl] at hc
      exact hc
    | cons l'' more =>
      rw [joinWith_cons_cons, List.getLast?_append, ih (List.getLast?_cons_cons ▸ hl)]
      rfl

/-- Joined lines have one line feed less than there are lines. -/
theorem count_joinWith {ls : List (List Char)} (hne : ls ≠ []) (h : ∀ l ∈ ls, '\n' ∉ l) :
    (joinWith ['\n'] ls).count '\n' + 1 = ls.length := by
  have hparts : ls.flatMap (splitOn '\n') = ls := by
    have hcongr : ls.flatMap (splitOn '\n') = ls.flatMap fun l => [l] :=
      List.flatMap_congr fun l hl => splitOn_of_not_mem (h l hl)
    rw [hcongr, List.flatMap_singleton']
  rw [← length_splitOn, splitOn_joinWith '\n' hne, hparts]

/-- **A text and lines that are not blank**, joined and without the white space around them, have a
line feed for each of the lines, but for one of them when the text is blank. -/
theorem count_trim_joinWith {more : List (List Char)} (hfirst : '\n' ∉ first)
    (hmore : ∀ l ∈ more, '\n' ∉ l ∧ ∃ c ∈ l, isBlank c = false) :
    (trim (joinWith ['\n'] (first :: more.map trimEnd))).count '\n' =
      more.length - if first.all isBlank then 1 else 0 := by
  cases more with
  | nil =>
    have hpart := trim_infix first
    rw [List.length_nil, Nat.zero_sub, List.count_eq_zero]
    exact fun hmem => hfirst (hpart.subset hmem)
  | cons l more =>
    have hlines : ∀ l' ∈ (l :: more).map trimEnd, '\n' ∉ l' := by
      intro l' hl'
      obtain ⟨l, hl, rfl⟩ := List.mem_map.1 hl'
      exact fun hmem => (hmore l hl).1 ((trimEnd_isPrefix l).subset hmem)
    have hcount := count_joinWith (by simp) hlines
    rw [List.length_map, List.length_cons] at hcount
    obtain ⟨c, hc, hblank⟩ : ∃ c,
        (joinWith ['\n'] ((l :: more).map trimEnd)).getLast? = some c ∧ isBlank c = false := by
      obtain ⟨last, hlast⟩ := Option.ne_none_iff_exists'.1
        (mt List.getLast?_eq_none_iff.1 (List.cons_ne_nil l more))
      obtain ⟨c, hc, hblank⟩ := getLast?_trimEnd (hmore last (List.mem_of_getLast? hlast)).2
      exact ⟨c, getLast?_joinWith (by rw [List.getLast?_map, hlast]; rfl) hc, hblank⟩
    have hstart : (trimStart (joinWith ['\n'] ((l :: more).map trimEnd))).count '\n' = more.length := by
      obtain ⟨rest, hrest⟩ := part_isPrefix_joinWith ['\n'] (trimEnd l) (more.map trimEnd)
      obtain ⟨d, hd, hd'⟩ := getLast?_trimEnd (hmore l List.mem_cons_self).2
      rw [List.map_cons, ← hrest] at hcount ⊢
      rw [trimStart_append ⟨d, List.mem_of_getLast? hd, hd'⟩, List.count_append,
        count_trimStart_of_not_mem (hlines _ (List.mem_map_of_mem List.mem_cons_self))]
      rw [List.count_append, List.count_eq_zero.2 (hlines _ (List.mem_map_of_mem List.mem_cons_self))]
        at hcount
      omega
    rw [List.map_cons, joinWith_cons_cons, List.append_assoc, ← List.map_cons]
    rw [trim_of_getLast? (c := c) (by rw [List.getLast?_append, List.getLast?_append, hc]; rfl) hblank]
    cases hall : first.all isBlank with
    | true =>
      have hfeed : ∀ c ∈ ['\n'], isBlank c = true := List.forall_mem_singleton.2 (by decide)
      rw [trimStart_append_of_blank (List.all_eq_true.1 hall), trimStart_append_of_blank hfeed, hstart]
      rfl
    | false =>
      obtain ⟨d, hd, hd'⟩ := List.all_eq_false.1 hall
      rw [trimStart_append ⟨d, hd, Bool.not_eq_true _ ▸ hd'⟩, List.count_append,
        count_trimStart_of_not_mem hfirst, List.singleton_append, List.count_cons_self, hcount]
      simp

end Text

namespace Output
namespace Tsc

variable {found : List Finding} {f : Finding}

/-- A finding is read from one of the lines, and so is all that goes on with it. -/
theorem Reading.exists_line {lines : List (List Char)} (h : Reading lines found) (hf : f ∈ found) :
    (∃ line ∈ lines, f.header.Fits line) ∧ ∀ l ∈ f.more, l ∈ lines ∧ isContinuation l = true := by
  induction h with
  | nil => cases hf
  | @header line rest hd found hline hrest ih =>
    rcases List.mem_cons.1 hf with rfl | hf
    · refine ⟨⟨line, List.mem_cons_self, hline.1⟩, fun l hl => ⟨?_, List.mem_takeWhile_imp hl⟩⟩
      exact List.mem_cons_of_mem _ ((List.takeWhile_prefix isContinuation).subset hl)
    · obtain ⟨⟨line', hmem, hfits⟩, hmore⟩ := ih hf
      exact ⟨⟨line', List.mem_cons_of_mem _ hmem, hfits⟩,
        fun l hl => (hmore l hl).imp_left (List.mem_cons_of_mem _)⟩
  | other hline hrest ih =>
    obtain ⟨⟨line', hmem, hfits⟩, hmore⟩ := ih hf
    exact ⟨⟨line', List.mem_cons_of_mem _ hmem, hfits⟩,
      fun l hl => (hmore l hl).imp_left (List.mem_cons_of_mem _)⟩

/-- The parts of a header are written in its line. -/
theorem Header.Fits.subset {h : Header} {line : List Char} (hline : h.Fits line) :
    h.path ⊆ line ∧ h.code ⊆ line ∧ h.text ⊆ line := by
  obtain ⟨-, -, rest, rfl, hends⟩ := hline
  have hmiddle : h.code ⊆ h.middle := fun c hc => by simp [Header.middle, hc]
  refine ⟨List.subset_append_left _ _, fun c hc => List.mem_append_right _ ?_,
    fun c hc => List.mem_append_right _ ?_⟩
  · rcases hends with rfl | ⟨rfl, -⟩
    · exact List.mem_append_left _ (hmiddle hc)
    · exact List.mem_append_left _ (hmiddle hc)
  · rcases hends with rfl | ⟨rfl, -⟩
    · exact List.mem_append_right _ (List.mem_cons_of_mem _ hc)
    · exact List.mem_append_right _ hc

theorem exists_not_isBlank {l : List Char} (h : isContinuation l = true) : ∃ c ∈ l, Text.isBlank c = false := by
  rw [isContinuation, Bool.and_eq_true, Bool.not_eq_true', List.all_eq_false] at h
  obtain ⟨c, hc, hblank⟩ := h.2
  exact ⟨c, hc, Bool.not_eq_true _ ▸ hblank⟩

/-- **On how many lines a finding is told.** The path and the rule of its issue are on one line. Its
message has a line feed for each line that goes on with the header, but for one of them when the
header has no text. -/
theorem Reading.count_issue {output : String} (h : Reading (Text.lines output.toList) found) (hf : f ∈ found)
    (root : Path) : '\n' ∉ (f.issue root).path.toList ∧ '\n' ∉ (f.issue root).ruleId.toList ∧
      (f.issue root).message.toList.count '\n' =
        f.more.length - if f.header.text.all Text.isBlank then 1 else 0 := by
  obtain ⟨⟨line, hline, hfits⟩, hmore⟩ := h.exists_line hf
  obtain ⟨hpath, hcode, htext⟩ := hfits.subset
  have hfeed {l : List Char} (hl : l ∈ Text.lines output.toList) : '\n' ∉ l := fun hmem => by
    have hboundary := Text.oneLine_of_mem_lines hl '\n' hmem
    revert hboundary
    decide
  refine ⟨fun hmem => ?_, fun hmem => ?_, ?_⟩
  · rcases Path.mem_key hmem with hdot | hslash | hmem
    · revert hdot
      decide
    · revert hslash
      decide
    · rw [String.toList_ofList] at hmem
      exact hfeed hline (hpath hmem)
  · have hmem : '\n' ∈ ("tsc/" ++ String.ofList f.header.code).toList := hmem
    rw [String.toList_append, List.mem_append] at hmem
    rcases hmem with hmem | hmem
    · revert hmem
      decide
    · rw [String.toList_ofList] at hmem
      exact hfeed hline (hcode hmem)
  · show (String.ofList f.message).toList.count '\n' = _
    rw [String.toList_ofList, Finding.message]
    exact Text.count_trim_joinWith (fun hmem => hfeed hline (htext hmem)) fun l hl =>
      ⟨hfeed (hmore l hl).1, exists_not_isBlank (hmore l hl).2⟩

end Tsc
end Output
end LintMerge
