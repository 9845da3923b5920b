/-
# Arguments without flags

Two command lines differ in some flags only if they are the same without them. A flag is left out of
the arguments where it stands by itself (`Arguments.without`), which is told as the arguments are
read one by one: after an option that takes a value, or after two dashes, the same text is none.
What arguments say without flags is what they say with them, but for these
(`Arguments.parse_without`), and so is what a run of the linters is asked for
(`Request.read_without`).
-/

import LintMerge.Command.Request
import LintMerge.Proofs.Check.Outcome

namespace LintMerge
namespace Command

namespace Arguments

variable {known : List Known} {flags : List String} {s name value : String}

/-- Arguments without some flags. What is the value of an option, or stands after two dashes, is none. -/
def without (known : List Known) (flags : List String) : List String → List String
  | [] => []
  | "--" :: rest => "--" :: rest
  | s :: rest =>
    match reading known s with
    | .option .. => if s ∈ flags then without known flags rest else s :: without known flags rest
    | .awaiting _ =>
      match rest with
      | value :: rest => s :: value :: without known flags rest
      | [] => [s]
    | .operand => s :: without known flags rest
    | .refused _ => s :: without known flags rest

/-- Options and operands without some options. -/
def drop (flags : List String) (a : Arguments) : Arguments :=
  { a with options := a.options.filter fun o => o.1 ∉ flags }

/-- Whether an option takes a value. -/
def TakesValue (known : List Known) (name : String) : Prop :=
  ∃ n, known.find? (fun k => k.name = name) = some ⟨n, true⟩

/-- Whether some options are flags. -/
def AreFlags (known : List Known) (flags : List String) : Prop :=
  ∀ s ∈ flags, splitValue s = (s, none) ∧ known.find? (fun k => k.name = s) = some ⟨s, false⟩

theorem AreFlags.not_mem (hflags : AreFlags known flags) (h : TakesValue known name) : name ∉ flags := by
  intro hmem
  obtain ⟨n, hfind⟩ := h
  rw [(hflags _ hmem).2] at hfind
  cases hfind

/-- An argument without a value is the name of an option. -/
theorem eq_of_splitValue (h : splitValue s = (name, none)) : name = s := by
  obtain ⟨hname, hvalue⟩ := Prod.mk.inj h
  have hlength : ¬ (s.toList.takeWhile (· ≠ '=')).length < s.toList.length := fun hlt => by
    rw [if_pos hlt] at hvalue
    cases hvalue
  have hprefix := List.takeWhile_prefix (· ≠ '=') (l := s.toList)
  rw [← hname, hprefix.eq_of_length_le (Nat.not_lt.1 hlength), String.ofList_toList]

/-- What it takes for an argument to be an option. -/
theorem of_reading (known : List Known) (s : String) :
    match reading known s with
    | .option name _ => ∃ value?, splitValue s = (name, value?) ∧ (value? = none ∨ TakesValue known name)
    | .awaiting name => TakesValue known name
    | .operand => True
    | .refused _ => True := by
  by_cases hoption : looksLikeOption s
  · obtain ⟨name, value?, hsplit⟩ : ∃ name value?, splitValue s = (name, value?) := ⟨_, _, rfl⟩
    rw [reading, if_pos hoption, hsplit]
    dsimp only
    cases hfind : known.find? fun k => k.name = name with
    | none => trivial
    | some k =>
      obtain ⟨n, takesValue⟩ := k
      cases takesValue <;> cases value?
      · exact ⟨none, rfl, .inl rfl⟩
      · trivial
      · exact ⟨n, hfind⟩
      · exact ⟨_, rfl, .inr ⟨n, hfind⟩⟩
  · rw [reading, if_neg hoption]
    trivial

/-- An option that is given is a flag if it is written as one. -/
theorem AreFlags.mem_iff (hflags : AreFlags known flags) (h : reading known s = .option name value) :
    name ∈ flags ↔ s ∈ flags := by
  have hreading := of_reading known s
  rw [h] at hreading
  obtain ⟨value?, hsplit, rfl | htakes⟩ := hreading
  · rw [eq_of_splitValue hsplit]
  · refine iff_of_false (hflags.not_mem htakes) fun hs => hflags.not_mem htakes ?_
    rw [(hflags s hs).1] at hsplit
    cases hsplit
    exact hs

theorem AreFlags.not_mem_of_awaiting (hflags : AreFlags known flags)
    (h : reading known s = .awaiting name) : name ∉ flags := by
  have hreading := of_reading known s
  rw [h] at hreading
  exact hflags.not_mem hreading

theorem drop_withOption (h : name ∉ flags) (a : Arguments) :
    drop flags (withOption name value a) = withOption name value (drop flags a) := by
  simp [drop, withOption, h]

theorem drop_withOption_flag (h : name ∈ flags) (a : Arguments) :
    drop flags (withOption name value a) = drop flags a := by
  simp [drop, withOption, h]

theorem map_map_of {f f' g : Arguments → Arguments} (h : ∀ a, g (f a) = f' (g a))
    (x : Except UsageFault Arguments) : (x.map f).map g = (x.map g).map f' := by
  cases x with
  | error fault => rfl
  | ok a => exact congrArg Except.ok (h a)

/-- What arguments say whose first one is not two dashes. -/
theorem parse_cons (hdash : s ≠ "--") (rest : List String) :
    parse known true (s :: rest) =
      match reading known s with
      | .option name value => (parse known true rest).map (withOption name value)
      | .awaiting name =>
        match rest with
        | value :: rest => (parse known true rest).map (withOption name value)
        | [] => .error (.valueMissing name)
      | .operand => (parse known true rest).map (withOperand s)
      | .refused fault => .error fault := by
  rw [parse]
  · rfl
  · exact hdash

/-- **Arguments without flags** say what they say with them, but for the flags. -/
theorem parse_without (hflags : AreFlags known flags) (args : List String) :
    parse known true (without known flags args) = (parse known true args).map (drop flags) := by
  fun_induction without known flags args with
  | case1 => rfl
  | case2 => rfl
  | case3 s rest hdash name value hread hs ih =>
    rw [ih, parse_cons hdash, hread]
    cases parse known true rest with
    | error fault => rfl
    | ok a => exact congrArg Except.ok (drop_withOption_flag ((hflags.mem_iff hread).2 hs) a).symm
  | case4 s rest hdash name value hread hs ih =>
    have hname : name ∉ flags := mt (hflags.mem_iff hread).1 hs
    rw [parse_cons hdash, parse_cons hdash, hread, ih]
    exact (map_map_of (drop_withOption hname) _).symm
  | case5 s hdash name hread value rest ih =>
    rw [parse_cons hdash, parse_cons hdash, hread]
    dsimp only
    rw [ih]
    exact (map_map_of (drop_withOption (hflags.not_mem_of_awaiting hread)) _).symm
  | case6 s hdash name hread =>
    rw [parse_cons hdash, hread]
    rfl
  | case7 s rest hdash hread ih =>
    have hadd (a : Arguments) : drop flags (withOperand s a) = withOperand s (drop flags a) := rfl
    rw [parse_cons hdash, parse_cons hdash, hread, ih]
    exact (map_map_of hadd _).symm
  | case8 s rest hdash fault hread ih =>
    rw [parse_cons hdash, parse_cons hdash, hread]
    rfl

end Arguments

/-- What is asked for without some flags of the presentation. -/
def LintRequest.drop (flags : List String) (q : LintRequest) : LintRequest :=
  { q with
    json := q.json && "--json" ∉ flags
    pretty := q.pretty && "--pretty" ∉ flags
    quiet := q.quiet && "--quiet" ∉ flags
    verbose := q.verbose && "--verbose" ∉ flags }

/-- The flags that only concern how a run is presented. -/
def presentation : List String := ["--json", "--pretty", "--quiet", "--verbose"]

namespace Arguments

variable {flags : List String} {a : Arguments} {name : String}

theorem has_drop (flags : List String) (a : Arguments) (name : String) :
    (drop flags a).has name = (a.has name && name ∉ flags) := by
  rw [Bool.eq_iff_iff]
  simp only [has, drop, List.any_filter, List.any_eq_true, Bool.and_eq_true, decide_eq_true_eq]
  constructor
  · rintro ⟨o, ho, hnot, rfl⟩
    exact ⟨⟨o, ho, rfl⟩, hnot⟩
  · rintro ⟨⟨o, ho, rfl⟩, hnot⟩
    exact ⟨o, ho, hnot, rfl⟩

theorem values_drop (h : name ∉ flags) : (drop flags a).values name = a.values name := by
  rw [values, values, drop, List.filter_filter]
  refine congrArg _ (List.filter_congr fun o _ => ?_)
  by_cases ho : o.1 = name
  · simp [ho, h]
  · simp [ho]

theorem last?_drop (h : name ∉ flags) : (drop flags a).last? name = a.last? name := by
  rw [last?, last?, values_drop h]

end Arguments

namespace Request

open Arguments

variable {flags : List String} {t : Tree} {workDir : Path}

theorem areFlags_presentation : AreFlags lintOptions presentation := by
  unfold AreFlags
  decide

/-- The value of an option is no flag. -/
example : without lintOptions ["--quiet"] ["--linters", "--quiet", "--quiet", "a.ts"] =
    ["--linters", "--quiet", "a.ts"] := by decide

/-- Without flags of the presentation arguments ask for the same, but for these. -/
theorem lintOf_drop (h : flags ⊆ presentation) (a : Arguments) :
    lintOf t workDir (drop flags a) = (lintOf t workDir a).map (LintRequest.drop flags) := by
  have hother {name : String} (hname : name ∉ presentation) : name ∉ flags := fun hmem => hname (h hmem)
  rw [lintOf, lintOf, last?_drop (hother (by decide)), last?_drop (hother (by decide)),
    last?_drop (hother (by decide)), last?_drop (hother (by decide)), values_drop (hother (by decide))]
  have hfix : (drop flags a).has "--fix" = a.has "--fix" := by
    rw [has_drop, decide_eq_true (hother (by decide)), Bool.and_true]
  rw [hfix]
  simp only [has_drop]
  cases (a.last? "--timeout").mapM time with
  | error fault => rfl
  | ok timeoutMs =>
    cases (a.last? "--cwd").mapM (folder t workDir) with
    | error fault => rfl
    | ok cwd => rfl

/-- What the arguments of the command that runs the linters ask for. -/
def asked (t : Tree) (workDir : Path) (args : List String) : Except UsageFault Request :=
  ofCommand "lint" lintOptions (fun a => (lintOf t workDir a).map .lint) args

theorem read_lint (t : Tree) (workDir : Path) (args : List String) :
    read t workDir ("lint" :: args) = asked t workDir args := by
  have hown : Arguments.parse ownOptions false ("lint" :: args) = .ok { operands := "lint" :: args } := by
    rw [Arguments.parse]
    · rfl
    · decide
  rw [read, hown]
  rfl

/-- The command that runs the linters is asked to run them, or for its screen of help. -/
theorem of_asked {args : List String} {r : Request} (h : asked t workDir args = .ok r) :
    r = .help (some "lint") ∨ ∃ q, r = .lint q := by
  obtain ⟨a, -, h⟩ := Faulty.bind_eq_ok.1 h
  split at h
  · exact .inl (Except.ok.inj h).symm
  · dsimp only at h
    cases hq : lintOf t workDir a with
    | error fault =>
      rw [hq] at h
      cases h
    | ok q =>
      rw [hq] at h
      exact .inr ⟨q, (Except.ok.inj h).symm⟩

/-- What is asked for without some flags of the presentation. -/
def drop (flags : List String) : Request → Request
  | .lint q => .lint (q.drop flags)
  | r => r

theorem asked_without (t : Tree) (workDir : Path) (h : flags ⊆ presentation) (args : List String) :
    asked t workDir (without lintOptions flags args) = (asked t workDir args).map (drop flags) := by
  rw [asked, asked, ofCommand, ofCommand, parse_without fun s hs => areFlags_presentation s (h hs)]
  cases Arguments.parse lintOptions true args with
  | error fault => rfl
  | ok a =>
    have hhelp : (Arguments.drop flags a).has helpName = a.has helpName := by
      have hother : helpName ∉ flags := fun hmem => absurd (h hmem) (by decide)
      rw [has_drop, decide_eq_true hother, Bool.and_true]
    show (if (Arguments.drop flags a).has helpName then _ else
      (lintOf t workDir (Arguments.drop flags a)).map Request.lint) = Except.map _ (if a.has helpName then _ else _)
    rw [hhelp, lintOf_drop h]
    split
    · rfl
    · cases lintOf t workDir a <;> rfl

/-- **Command lines that differ in flags of the presentation only** are both refused for one fault,
both ask for the screen of help, or ask for the same run of the linters, but for these flags. -/
theorem read_without {args args' : List String} (hflags : flags ⊆ presentation)
    (h : without lintOptions flags args = without lintOptions flags args') :
    (∃ fault, read t workDir ("lint" :: args) = .error fault ∧
      read t workDir ("lint" :: args') = .error fault) ∨
    (read t workDir ("lint" :: args) = .ok (.help (some "lint")) ∧
      read t workDir ("lint" :: args') = .ok (.help (some "lint"))) ∨
    ∃ q q', read t workDir ("lint" :: args) = .ok (.lint q) ∧
      read t workDir ("lint" :: args') = .ok (.lint q') ∧ q.drop flags = q'.drop flags := by
  have hasked := asked_without t workDir hflags args
  rw [h, asked_without t workDir hflags] at hasked
  rw [read_lint, read_lint]
  cases hr : asked t workDir args with
  | error fault =>
    rw [hr] at hasked
    cases hr' : asked t workDir args' with
    | error fault' =>
      rw [hr'] at hasked
      cases hasked
      exact .inl ⟨fault, rfl, rfl⟩
    | ok r' =>
      rw [hr'] at hasked
      cases hasked
  | ok r =>
    rw [hr] at hasked
    cases hr' : asked t workDir args' with
    | error fault' =>
      rw [hr'] at hasked
      cases hasked
    | ok r' =>
      rw [hr'] at hasked
      have hdrop : drop flags r' = drop flags r := Except.ok.inj hasked
      rcases of_asked hr with rfl | ⟨q, rfl⟩ <;> rcases of_asked hr' with rfl | ⟨q', rfl⟩
      · exact .inr (.inl ⟨rfl, rfl⟩)
      · cases hdrop
      · cases hdrop
      · exact .inr (.inr ⟨q, q', rfl, rfl, (Request.lint.inj hdrop).symm⟩)

end Request
end Command
end LintMerge
