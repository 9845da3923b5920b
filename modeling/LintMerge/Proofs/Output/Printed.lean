/-
# What the type checker prints is read

A record is printed as `path(line,column): category code: text` and the lines that go on with it
(`Entry`). The form of a header does not tell where the path ends: a path may hold parentheses,
digits, commas and colons, and a text may look like another header. It is enough that no `): `
stands in the path (`Header.Fits.heads`). A shorter path would end inside of the path, and its line
and column would reach up to a `): `, either inside of the path or beyond the parenthesis after
it; but no parenthesis opens between two numbers.

So the lines of a document are read as its entries, whatever other lines stand between them
(`Document.reading`), and each entry is parsed as one issue, which says what was printed
(`parse_print`).
-/

import Mathlib.Data.Nat.Digits.Defs
import LintMerge.Proofs.Json.Tokens
import LintMerge.Proofs.Output.Records

namespace LintMerge

namespace Text

/-- No digit is the end of a line. -/
theorem not_isBoundary_of_isDigit {c : Char} (h : isDigit c = true) : isBoundary c = false := by
  have hnone : ∀ n ∈ [10, 11, 12, 13, 28, 29, 30, 0x85, 0x2028, 0x2029],
      isDigit (Char.ofNat n) = false := by decide
  by_contra hc
  have hmem : c.toNat ∈ [10, 11, 12, 13, 28, 29, 30, 0x85, 0x2028, 0x2029] := by
    simp only [isBoundary, Bool.not_eq_false, Bool.or_eq_true, Bool.and_eq_true, decide_eq_true_eq,
      beq_iff_eq] at hc
    simp only [List.mem_cons, List.not_mem_nil, or_false]
    omega
  have hdigit := hnone _ hmem
  rw [Char.ofNat_toNat, h] at hdigit
  cases hdigit

/-- The digits of a number stand for it. -/
theorem ofDigits_toDigits (n : Nat) : ofDigits ((Nat.toDigits 10 n).filterMap digitValue?) = n := by
  have hmap : (Nat.toDigits 10 n).filterMap digitValue? =
      (Nat.toDigits 10 n).map fun c => c.toNat - 48 := by
    rw [← List.filterMap_eq_map]
    exact List.filterMap_congr fun c hc => digitValue?_of_isAsciiDigit (isAsciiDigit_of_mem_toDigits hc)
  rw [hmap, ofDigits_map, Nat.ofDigitChars_ten_toDigits]

end Text

namespace Output
namespace Tsc

/-- Numbers are written as numerals. -/
theorem isNumeral_toDigits (n : Nat) : IsNumeral (Nat.toDigits 10 n) :=
  ⟨Nat.toDigits_ne_nil, fun _ hc =>
    Text.isDigit_of_isAsciiDigit (Text.isAsciiDigit_of_mem_toDigits hc)⟩

theorem IsNumeral.oneLine {ds : List Char} (h : IsNumeral ds) : Text.OneLine ds := fun c hc =>
  Text.not_isBoundary_of_isDigit (h.2 c hc)

theorem IsNumeral.not_mem {ds : List Char} (h : IsNumeral ds) {c : Char} (hc : Text.isDigit c = false) :
    c ∉ ds := by
  intro hmem
  rw [h.2 c hmem] at hc
  cases hc

/-- What stands between the parenthesis of a header and its category. -/
def Header.place (h : Header) : List Char := h.line ++ ',' :: h.column ++ "): ".toList

theorem Header.exists_middle (h : Header) : ∃ rest, h.middle = '(' :: (h.place ++ rest) :=
  ⟨h.category.toList ++ ' ' :: h.code ++ [':'], by simp [Header.middle, Header.place]⟩

/-- No parenthesis opens in a place. -/
theorem Header.Proper.not_mem_place {h : Header} (hproper : h.Proper) : '(' ∉ h.place := by
  have hline : '(' ∉ h.line := hproper.line.not_mem (by decide)
  have hcolumn : '(' ∉ h.column := hproper.column.not_mem (by decide)
  simp [Header.place, hline, hcolumn]

theorem Header.Ends.exists_place {h : Header} {rest : List Char} (hends : h.Ends rest) :
    ∃ more, rest = '(' :: (h.place ++ more) := by
  obtain ⟨t, rfl, -⟩ := Header.ends_iff.1 hends
  obtain ⟨more, hmore⟩ := h.exists_middle
  exact ⟨more ++ t, by rw [hmore, List.cons_append, List.append_assoc]⟩

/-- A text without some character ends before the first place where the character stands. -/
theorem isPrefix_of_append_eq {s t u v : List Char} {c : Char} (hc : c ∉ s)
    (h : t ++ c :: u = s ++ v) : s <+: t := by
  rcases List.append_eq_append_iff.1 h with ⟨a, ha, hrest⟩ | ⟨a, ha, -⟩
  · cases a with
    | nil => exact ⟨[], by rw [ha, List.append_nil, List.append_nil]⟩
    | cons d a =>
      obtain ⟨rfl, -⟩ := List.cons.inj hrest
      exact absurd (ha ▸ by simp) hc
  · exact ⟨a, ha.symm⟩

/-- **A path in which no `): ` stands is the path of the header.** A header with a shorter path would
have its place in the path, or there would be a parenthesis in the place. -/
theorem Header.Fits.heads {h : Header} {s : List Char} (hs : h.Fits s)
    (hclose : ¬ "): ".toList <:+: h.path) : h.Heads s := by
  refine ⟨hs, fun h' hs' => ?_⟩
  by_contra hshort
  obtain ⟨-, -, rest, rfl, hends⟩ := hs
  obtain ⟨hproper', -, rest', hsplit, hends'⟩ := hs'
  obtain ⟨more, rfl⟩ := hends.exists_place
  obtain ⟨more', rfl⟩ := hends'.exists_place
  obtain ⟨q, hpath⟩ : h'.path <+: h.path :=
    List.prefix_of_prefix_length_le (List.prefix_append _ _) (hsplit ▸ List.prefix_append _ _) (by omega)
  rw [← hpath, List.append_assoc] at hsplit
  have hq : q ++ '(' :: (h.place ++ more) = '(' :: (h'.place ++ more') := List.append_cancel_left hsplit
  cases q with
  | nil =>
    rw [List.append_nil] at hpath
    rw [hpath] at hshort
    exact hshort (Nat.le_refl _)
  | cons c q =>
    obtain ⟨rfl, htail⟩ := List.cons.inj hq
    have hplace : h'.place <+: q := isPrefix_of_append_eq hproper'.not_mem_place htail
    have hq : q <:+ h.path := hpath ▸ ⟨h'.path ++ ['('], by simp⟩
    have hend : "): ".toList <:+ h'.place := List.suffix_append _ _
    exact hclose (hend.isInfix.trans (hplace.isInfix.trans hq.isInfix))

/-- A record as it is printed. -/
structure Entry where
  path : List Char
  line : Nat
  column : Nat
  category : String
  /-- the digits of the code -/
  code : List Char
  text : List Char
  /-- the lines that go on with it -/
  more : List (List Char)
  path_head : ∃ c, path.head? = some c ∧ Text.isBlank c = false
  path_oneLine : Text.OneLine path
  path_unclosed : ¬ "): ".toList <:+: path
  line_pos : 0 < line
  line_lt : line < 10 ^ Text.maxDigits
  column_pos : 0 < column
  column_lt : column < 10 ^ Text.maxDigits
  category_mem : category ∈ categories
  code_isNumeral : IsNumeral code
  text_oneLine : Text.OneLine text
  more_oneLine : ∀ l ∈ more, Text.OneLine l
  /-- they start with a space or a tab and are not blank -/
  more_indented : ∀ l ∈ more, (l.head? = some ' ' ∨ l.head? = some '\t') ∧ ∃ c ∈ l, Text.isBlank c = false

/-- A line that is blank, or is neither indented nor a header. -/
structure Stray where
  line : List Char
  oneLine : Text.OneLine line
  apart : (∀ c ∈ line, Text.isBlank c = true) ∨
    (line.head? ≠ some ' ' ∧ line.head? ≠ some '\t' ∧ ∀ h : Header, ¬ h.Fits line)

namespace Entry

variable (e : Entry)

/-- The first line of a record. -/
def first : List Char :=
  e.path ++ '(' :: Nat.toDigits 10 e.line ++ ',' :: Nat.toDigits 10 e.column ++ "): ".toList ++
    e.category.toList ++ " TS".toList ++ e.code ++ ": ".toList ++ e.text

/-- The lines of a record. -/
def lines : List (List Char) := e.first :: e.more

/-- The header that the first line is to be read as. -/
def header : Header :=
  ⟨e.path, Nat.toDigits 10 e.line, Nat.toDigits 10 e.column, e.category, 'T' :: 'S' :: e.code, e.text⟩

/-- What is to be read of a record. -/
def finding : Finding := ⟨e.header, e.more⟩

theorem header_heads : e.header.Heads e.first := by
  have hproper : e.header.Proper := ⟨isNumeral_toDigits _, isNumeral_toDigits _, e.category_mem,
    e.code, rfl, e.code_isNumeral⟩
  have hends : e.header.Ends (e.header.middle ++ ' ' :: e.text) := .inl rfl
  have hfirst : e.first = e.path ++ (e.header.middle ++ ' ' :: e.text) := by
    simp [first, Header.middle, header]
  exact Header.Fits.heads ⟨hproper, e.path_head, _, hfirst, hends⟩ e.path_unclosed

theorem isContinuation_of_mem {l : List Char} (hl : l ∈ e.more) : isContinuation l = true := by
  obtain ⟨hindent, c, hc, hblank⟩ := e.more_indented l hl
  rw [isContinuation, Bool.and_eq_true, Bool.or_eq_true, decide_eq_true_iff, decide_eq_true_iff,
    Bool.not_eq_true', List.all_eq_false]
  exact ⟨hindent, c, hc, by rw [hblank]; decide⟩

theorem oneLine_category : Text.OneLine e.category.toList := by
  have hcases : e.category = "error" ∨ e.category = "warning" ∨ e.category = "message" := by
    simpa [categories] using e.category_mem
  rcases hcases with h | h | h <;> rw [h] <;> decide

theorem oneLine_of_mem {l : List Char} (hl : l ∈ e.lines) : Text.OneLine l := by
  rcases List.mem_cons.1 hl with rfl | hl
  · have hline := (isNumeral_toDigits e.line).oneLine
    have hcolumn := (isNumeral_toDigits e.column).oneLine
    simp only [first, Text.oneLine_append, Text.oneLine_cons]
    exact ⟨⟨⟨⟨⟨⟨⟨⟨e.path_oneLine, by decide, hline⟩, by decide, hcolumn⟩, by decide⟩, e.oneLine_category⟩,
      by decide⟩, e.code_isNumeral.oneLine⟩, by decide⟩, e.text_oneLine⟩
  · exact e.more_oneLine l hl

/-- A record has no more digits than are read. -/
theorem short_finding : e.finding.Short := by
  have hpos : 0 < Text.maxDigits := by decide
  exact ⟨(Nat.length_toDigits_le_iff (by decide) hpos).2 e.line_lt,
    (Nat.length_toDigits_le_iff (by decide) hpos).2 e.column_lt⟩

end Entry

namespace Stray

variable (l : Stray)

theorem not_isContinuation : isContinuation l.line = false := by
  rw [isContinuation]
  rcases l.apart with hblank | ⟨hspace, htab, -⟩
  · rw [List.all_eq_true.2 hblank, Bool.not_true, Bool.and_false]
  · rw [decide_eq_false hspace, decide_eq_false htab]
    rfl

theorem not_fits (h : Header) : ¬ h.Fits l.line := by
  rcases l.apart with hblank | ⟨-, -, hno⟩
  · rintro ⟨-, ⟨c, hhead, hc⟩, rest, hsplit, -⟩
    obtain ⟨path, hpath⟩ := List.head?_eq_some_iff.1 hhead
    have hmem : c ∈ l.line := by
      rw [hsplit, hpath]
      exact List.mem_cons_self
    rw [hblank c hmem] at hc
    cases hc
  · exact hno h

end Stray

/-- A line that is no header is not read. -/
theorem Reading.others {ls rest : List (List Char)} {found : List Finding}
    (hls : ∀ l ∈ ls, ∀ h : Header, ¬ h.Fits l) (hrest : Reading rest found) : Reading (ls ++ rest) found := by
  induction ls with
  | nil => exact hrest
  | cons l ls ih =>
    exact .other (hls l List.mem_cons_self) (ih fun l' hl' => hls l' (List.mem_cons_of_mem _ hl'))

/-- What the type checker prints: records, with other lines before them and after each of them. -/
structure Document where
  lead : List Stray
  blocks : List (Entry × List Stray)

namespace Document

/-- The lines of blocks. -/
def blockLines : List (Entry × List Stray) → List (List Char)
  | [] => []
  | (e, strays) :: rest => e.lines ++ (strays.map Stray.line ++ blockLines rest)

/-- The lines of a document. -/
def lines (d : Document) : List (List Char) := d.lead.map Stray.line ++ blockLines d.blocks

/-- The records of a document. -/
def entries (d : Document) : List Entry := d.blocks.map (·.1)

/-- A document as it is printed, each line with a line feed at its end. -/
def text (d : Document) : String := String.ofList (d.lines.flatMap (· ++ ['\n']))

/-- After the lines that go on with a record stands none that would go on with it. -/
theorem takeWhile_more (e : Entry) (strays : List Stray) (rest : List (Entry × List Stray)) :
    (e.more ++ (strays.map Stray.line ++ blockLines rest)).takeWhile isContinuation = e.more := by
  have hstop : (strays.map Stray.line ++ blockLines rest).takeWhile isContinuation = [] := by
    cases strays with
    | cons l strays => exact List.takeWhile_cons_of_neg (by rw [l.not_isContinuation]; decide)
    | nil =>
      cases rest with
      | nil => rfl
      | cons b rest =>
        have hfirst : isContinuation b.1.first = false := by
          by_contra hgo
          have hnone := header?_of_isContinuation (Bool.not_eq_false _ ▸ hgo)
          rw [header?_eq_some_iff.2 b.1.header_heads] at hnone
          cases hnone
        exact List.takeWhile_cons_of_neg (by rw [hfirst]; decide)
  rw [List.takeWhile_append_of_pos fun l hl => e.isContinuation_of_mem hl, hstop, List.append_nil]

/-- **The lines of blocks are read as their records.** -/
theorem reading_blockLines (blocks : List (Entry × List Stray)) :
    Reading (blockLines blocks) (blocks.map (·.1.finding)) := by
  induction blocks with
  | nil => exact .nil
  | cons b rest ih =>
    obtain ⟨e, strays⟩ := b
    have hstrays : Reading (strays.map Stray.line ++ blockLines rest) (rest.map (·.1.finding)) := by
      refine Reading.others (fun l hl h => ?_) ih
      obtain ⟨stray, -, rfl⟩ := List.mem_map.1 hl
      exact stray.not_fits h
    have hmore : Reading (e.more ++ (strays.map Stray.line ++ blockLines rest)) (rest.map (·.1.finding)) :=
      hstrays.others fun l hl => header?_eq_none_iff.1 (header?_of_isContinuation (e.isContinuation_of_mem hl))
    have hread := Reading.header e.header_heads hmore
    rwa [takeWhile_more] at hread

/-- **The lines of a document are read as its records.** -/
theorem reading (d : Document) : Reading d.lines (d.entries.map Entry.finding) := by
  rw [lines, entries, List.map_map]
  refine Reading.others (fun l hl h => ?_) (reading_blockLines d.blocks)
  obtain ⟨stray, -, rfl⟩ := List.mem_map.1 hl
  exact stray.not_fits h

theorem oneLine_blockLines (blocks : List (Entry × List Stray)) :
    ∀ l ∈ blockLines blocks, Text.OneLine l := by
  induction blocks with
  | nil => exact fun _ hl => absurd hl List.not_mem_nil
  | cons b rest ih =>
    obtain ⟨e, strays⟩ := b
    intro l hl
    rcases List.mem_append.1 hl with hl | hl
    · exact e.oneLine_of_mem hl
    · rcases List.mem_append.1 hl with hl | hl
      · obtain ⟨stray, -, rfl⟩ := List.mem_map.1 hl
        exact stray.oneLine
      · exact ih l hl

/-- A document is split into the lines that were printed. -/
theorem lines_text (d : Document) : Text.lines d.text.toList = d.lines := by
  rw [text, String.toList_ofList]
  refine Text.lines_flatMap_newline fun l hl => ?_
  rcases List.mem_append.1 hl with hl | hl
  · obtain ⟨stray, -, rfl⟩ := List.mem_map.1 hl
    exact stray.oneLine
  · exact oneLine_blockLines d.blocks l hl

end Document

/-- An issue says what was printed, with the path as it is seen from a directory. -/
structure Entry.ToldBy (root : Path) (e : Entry) (i : Issue) : Prop where
  path : i.path = root.key (String.ofList e.path)
  line : i.span.line = e.line
  column : i.span.column = e.column
  endLine : i.span.endLine = e.line
  endColumn : i.span.endColumn = e.column
  severity : i.severity = .error ↔ e.category = "error"
  ruleId : i.ruleId = "tsc/TS" ++ String.ofList e.code
  message : i.message.toList = Text.trim (Text.joinWith ['\n'] (e.text :: e.more.map Text.trimEnd))
  source : i.source = .tsc

theorem position_toDigits {n : Nat} (hn : 0 < n) : Finding.position (Nat.toDigits 10 n) = n := by
  rw [Finding.position, Text.ofDigits_toDigits]
  omega

/-- The issue of a record says what was printed. -/
theorem Entry.toldBy_issue (root : Path) (e : Entry) : e.ToldBy root (e.finding.issue root) where
  path := rfl
  line := position_toDigits e.line_pos
  column := position_toDigits e.column_pos
  endLine := position_toDigits e.line_pos
  endColumn := position_toDigits e.column_pos
  severity := by
    show (if e.category = "error" then Severity.error else .warning) = .error ↔ _
    split
    · next hcategory => exact iff_of_true rfl hcategory
    · next hcategory => exact iff_of_false (fun h => by cases h) hcategory
  ruleId := by
    rw [← String.toList_inj]
    simp [Finding.issue, finding, header]
  message := String.toList_ofList
  source := rfl

/-- **What is printed is read.** The printed text of a document, or any other text of the same lines, is
parsed as one issue for each of its records, in order, and the issue says what was printed. -/
theorem parse_print (root : Path) (d : Document) (s : String)
    (hs : s = d.text ∨ Text.lines s.toList = d.lines) :
    ∃ issues, parse root s = .ok issues ∧ List.Forall₂ (Entry.ToldBy root) d.entries issues := by
  have hlines : Text.lines s.toList = d.lines := by
    rcases hs with rfl | hs
    · exact d.lines_text
    · exact hs
  have hreading : Reading (Text.lines s.toList) (d.entries.map Entry.finding) := hlines ▸ d.reading
  have hshort : ∀ f ∈ d.entries.map Entry.finding, f.Short := by
    intro f hf
    obtain ⟨e, -, rfl⟩ := List.mem_map.1 hf
    exact e.short_finding
  refine ⟨_, hreading.parse_eq hshort root, ?_⟩
  rw [List.map_map, List.forall₂_map_right_iff, List.forall₂_same]
  exact fun e _ => e.toldBy_issue root

namespace Sample

theorem lt_ten_pow {n m : Nat} (hn : n < 10) (hm : 0 < m) : n < 10 ^ m :=
  Nat.lt_of_lt_of_le hn (Nat.le_self_pow (by omega) 10)

/-- A record of which the path looks like a place and the text like a header. -/
def entry : Entry where
  path := "f(1,2):g.ts".toList
  line := 3
  column := 4
  category := "error"
  code := "2322".toList
  text := "b.ts(5,6): error TS1: no.".toList
  more := ["  It is.".toList]
  path_head := ⟨'f', rfl, by decide⟩
  path_oneLine := by decide
  path_unclosed := fun h => absurd (h.subset (by decide : ' ' ∈ "): ".toList)) (by decide)
  line_pos := by decide
  line_lt := lt_ten_pow (by decide) (by decide)
  column_pos := by decide
  column_lt := lt_ten_pow (by decide) (by decide)
  category_mem := by decide
  code_isNumeral := ⟨by decide, List.all_eq_true.1 (by decide)⟩
  text_oneLine := by decide
  more_oneLine := by decide
  more_indented := by
    intro l hl
    obtain rfl := List.mem_singleton.1 hl
    exact ⟨.inl rfl, 'I', by decide, by decide⟩

/-- A blank line. -/
def blank : Stray := ⟨[], by decide, .inl fun _ h => absurd h List.not_mem_nil⟩

/-- A document of one record and blank lines around it. -/
def document : Document := ⟨[blank], [(entry, [blank])]⟩

end Sample

/-- The hypothesis of `parse_print` holds of what is printed. -/
theorem parse_print_sample :
    Sample.document.text = "\nf(1,2):g.ts(3,4): error TS2322: b.ts(5,6): error TS1: no.\n  It is.\n\n" ∧
      ∃ issues, parse ⟨1, ["project"]⟩ Sample.document.text = .ok issues ∧
        List.Forall₂ (Entry.ToldBy ⟨1, ["project"]⟩) [Sample.entry] issues :=
  ⟨by decide +kernel, parse_print _ Sample.document _ (.inl rfl)⟩

end Tsc
end Output
end LintMerge
