/-
# Which program is taken

A linter brings candidates, and a candidate may be there in two ways: the project has it installed,
or the search path leads to it (`Host.Offers`). The program that is taken is the least one that is
offered, where all that are installed come before all that are searched for, and within a way the
candidates come in their order; nothing is taken exactly where nothing is offered
(`Host.locate_least`). A program that the configuration names is taken in place of all candidates,
or none is (`Host.Names`).

This needs that paths can be looked up. A path that is too long before any candidate is found
installed ends the work with a fault (`Host.IsStuck`), also where the search path would lead to a
candidate (`Host.not_locate_offered`).
-/

import LintMerge.Linter.Program
import LintMerge.Proofs.Tree.FirstFile

namespace LintMerge

namespace ProgramSource

/-- A program at one place of a list, found in one way, comes before another or is it. -/
def Precedes (source : ProgramSource) (i : Nat) (source' : ProgramSource) (j : Nat) : Prop :=
  source = .installed ∧ source' = .searched ∨ source = source' ∧ i ≤ j

end ProgramSource

namespace Host

variable {h : Host} {cwd p q : Path} {candidates names before after : List String} {name s : String}
  {program program' : Program} {i j : Nat}

/-- What a name leads to when it is searched for: itself if it has a slash, or else the path of the
name in the first folder of the search path in which there is such a program. -/
def Searched (h : Host) (name s : String) : Prop :=
  if '/' ∈ name.toList then s = name ∧ h.runs name = true
  else ∃ before folder after, h.searchPath = before ++ folder :: after ∧ s = entryText folder name ∧
    h.runs s = true ∧ ∀ f ∈ before, h.runs (entryText f name) = false

theorem search?_eq_some_iff : h.search? name = some s ↔ h.Searched name s := by
  rw [search?, Searched]
  split
  · constructor
    · intro hs
      split at hs
      · next hruns =>
        cases hs
        exact ⟨rfl, hruns⟩
      · cases hs
    · rintro ⟨rfl, hruns⟩
      rw [if_pos hruns]
  · rw [List.find?_map, Option.map_eq_some_iff]
    constructor
    · rintro ⟨folder, hfind, rfl⟩
      obtain ⟨hruns, before, after, hsplit, hbefore⟩ := List.find?_eq_some_iff_append.1 hfind
      exact ⟨before, folder, after, hsplit, rfl, hruns, fun f hf => by simpa using hbefore f hf⟩
    · rintro ⟨before, folder, after, hsplit, rfl, hruns, hbefore⟩
      exact ⟨folder, List.find?_eq_some_iff_append.2
        ⟨hruns, before, after, hsplit, fun f hf => by simpa using hbefore f hf⟩, rfl⟩

/-- The candidate at a place of the list is there: the project has it installed, or the search path
leads to it. -/
inductive Offers (h : Host) (cwd : Path) (candidates : List String) : Nat → Program → Prop where
  | installed {i : Nat} {name : String} (hname : candidates[i]? = some name)
      (hfile : h.tree.isFile (installed cwd name) = true) :
      Offers h cwd candidates i ⟨name, (Host.installed cwd name).text, .installed⟩
  | searched {i : Nat} {name s : String} (hname : candidates[i]? = some name)
      (hsearched : h.Searched name s) : Offers h cwd candidates i ⟨name, s, .searched⟩

/-- Of what is offered nothing comes before a program. -/
structure IsLeast (h : Host) (cwd : Path) (candidates : List String) (i : Nat) (program : Program) :
    Prop where
  offers : h.Offers cwd candidates i program
  precedes : ∀ j program', h.Offers cwd candidates j program' →
    program.source.Precedes i program'.source j

/-- A candidate cannot be looked up, and none before it is installed. -/
def IsStuck (h : Host) (cwd : Path) (candidates : List String) (p : Path) : Prop :=
  ∃ before name after, candidates = before ++ name :: after ∧ p = installed cwd name ∧
    h.tree.isTooLong p = true ∧ ∀ n ∈ before, h.tree.Lacks (installed cwd n)

/-- A name leads to a program: without a slash along the search path, and with one to a file, as seen
from a folder. -/
inductive Names (h : Host) (cwd : Path) (name : String) : Program → Prop where
  | searched {s : String} (hslash : '/' ∉ name.toList) (hsearched : h.Searched name s) :
      Names h cwd name ⟨name, s, .configured⟩
  | file (hslash : '/' ∈ name.toList) (hfile : h.tree.isFile (cwd.join (Path.ofText name)) = true) :
      Names h cwd name
        ⟨(Path.ofText name).name, (cwd.join (Path.ofText name)).text, .configured⟩

/-! ### Candidates that are installed -/

/-- Candidates that are not installed are passed over. -/
theorem firstInstalled_append (hbefore : ∀ n ∈ before, h.tree.Lacks (installed cwd n)) :
    h.firstInstalled cwd (before ++ names) = h.firstInstalled cwd names := by
  induction before with
  | nil => rfl
  | cons n rest ih =>
    obtain ⟨⟨hlong, hfile⟩, hrest⟩ := List.forall_mem_cons.1 hbefore
    rw [List.cons_append, firstInstalled, hlong, hfile, ← ih hrest]
    rfl

theorem firstInstalled_of_lacks (hnames : ∀ n ∈ names, h.tree.Lacks (installed cwd n)) :
    h.firstInstalled cwd names = .ok none := by
  rw [← List.append_nil names, firstInstalled_append hnames]
  rfl

theorem firstInstalled_of_isFile (hbefore : ∀ n ∈ before, h.tree.Lacks (installed cwd n))
    (hfile : h.tree.isFile (installed cwd name) = true) :
    h.firstInstalled cwd (before ++ name :: after) =
      .ok (some ⟨name, (installed cwd name).text, .installed⟩) := by
  rw [firstInstalled_append hbefore, firstInstalled, Tree.isTooLong_of_isFile hfile, hfile]
  rfl

theorem firstInstalled_of_isStuck (hstuck : h.IsStuck cwd candidates p) :
    h.firstInstalled cwd candidates = .error p := by
  obtain ⟨before, name, after, rfl, rfl, hlong, hbefore⟩ := hstuck
  rw [firstInstalled_append hbefore, firstInstalled, if_pos hlong]

/-- No candidate is installed, or one cannot be looked up, or there is a first one that is
installed. -/
theorem installed_cases (h : Host) (cwd : Path) (candidates : List String) :
    (∀ n ∈ candidates, h.tree.Lacks (installed cwd n)) ∨ (∃ p, h.IsStuck cwd candidates p) ∨
      ∃ before name after, candidates = before ++ name :: after ∧
        h.tree.isFile (installed cwd name) = true ∧ ∀ n ∈ before, h.tree.Lacks (installed cwd n) := by
  cases hfind : candidates.find? fun n => ¬ h.tree.Lacks (installed cwd n) with
  | none => exact .inl fun n hn => by simpa using List.find?_eq_none.1 hfind n hn
  | some name =>
    obtain ⟨hname, before, after, rfl, hbefore⟩ := List.find?_eq_some_iff_append.1 hfind
    have hbefore : ∀ n ∈ before, h.tree.Lacks (installed cwd n) := fun n hn => by
      simpa using hbefore n hn
    cases hlong : h.tree.isTooLong (installed cwd name) with
    | true => exact .inr (.inl ⟨_, before, name, after, rfl, rfl, hlong, hbefore⟩)
    | false =>
      cases hfile : h.tree.isFile (installed cwd name) with
      | true => exact .inr (.inr ⟨before, name, after, rfl, hfile, hbefore⟩)
      | false => exact absurd ⟨hlong, hfile⟩ (of_decide_eq_true hname)

/-! ### Candidates that are searched for -/

/-- The first candidate to which the search path leads. -/
theorem firstSearched?_eq_some (hfirst : h.firstSearched? candidates = some program) :
    ∃ before name after s, candidates = before ++ name :: after ∧ h.Searched name s ∧
      program = ⟨name, s, .searched⟩ ∧ ∀ n ∈ before, h.search? n = none := by
  obtain ⟨before, name, after, hsplit, hname, hbefore⟩ := List.findSome?_eq_some_iff.1 hfirst
  obtain ⟨s, hs, rfl⟩ := Option.map_eq_some_iff.1 hname
  exact ⟨before, name, after, s, hsplit, search?_eq_some_iff.1 hs, rfl, fun n hn =>
    Option.map_eq_none_iff.1 (hbefore n hn)⟩

/-! ### The order of what is offered -/

/-- What is offered at one place in one way is one program. -/
theorem Offers.unique (ho : h.Offers cwd candidates i program) (ho' : h.Offers cwd candidates i program')
    (hsource : program.source = program'.source) : program = program' := by
  cases ho with
  | installed hname hfile =>
    cases ho' with
    | installed hname' hfile' => cases hname.symm.trans hname'; rfl
    | searched hname' hs' => cases hsource
  | searched hname hs =>
    cases ho' with
    | installed hname' hfile' => cases hsource
    | searched hname' hs' =>
      cases hname.symm.trans hname'
      cases (search?_eq_some_iff.2 hs).symm.trans (search?_eq_some_iff.2 hs')
      rfl

/-- One program is the least one. -/
theorem IsLeast.unique (hl : h.IsLeast cwd candidates i program)
    (hl' : h.IsLeast cwd candidates j program') : program = program' := by
  have hplace : program.source = program'.source ∧ i = j := by
    rcases hl.precedes j program' hl'.offers with ⟨hs, hs'⟩ | ⟨hs, hi⟩ <;>
      rcases hl'.precedes i program hl.offers with ⟨ht, ht'⟩ | ⟨ht, hj⟩
    · cases hs.symm.trans ht'
    · cases hs.symm.trans (ht.symm.trans hs')
    · cases ht.symm.trans (hs.symm.trans ht')
    · exact ⟨hs, Nat.le_antisymm hi hj⟩
  obtain ⟨hsource, rfl⟩ := hplace
  exact hl.offers.unique hl'.offers hsource

/-- A candidate that stands before a place is one of those before it. -/
theorem mem_of_getElem?_append (hlt : i < before.length)
    (hname : (before ++ names)[i]? = some name) : name ∈ before := by
  rw [List.getElem?_append_left hlt] at hname
  exact List.mem_of_getElem? hname

/-- The first candidate that is installed is the least one that is offered. -/
theorem isLeast_installed (hbefore : ∀ n ∈ before, h.tree.Lacks (installed cwd n))
    (hfile : h.tree.isFile (installed cwd name) = true) :
    h.IsLeast cwd (before ++ name :: after) before.length
      ⟨name, (installed cwd name).text, .installed⟩ where
  offers := .installed (by simp) hfile
  precedes j program' ho := by
    cases ho with
    | searched hname hs => exact .inl ⟨rfl, rfl⟩
    | installed hname hfile' =>
      refine .inr ⟨rfl, Nat.le_of_not_lt fun hlt => ?_⟩
      cases (hbefore _ (mem_of_getElem?_append hlt hname)).2.symm.trans hfile'

/-- Where no candidate is installed, the first one to which the search path leads is the least one. -/
theorem isLeast_searched (hlacks : ∀ n ∈ before ++ name :: after, h.tree.Lacks (installed cwd n))
    (hs : h.Searched name s) (hbefore : ∀ n ∈ before, h.search? n = none) :
    h.IsLeast cwd (before ++ name :: after) before.length ⟨name, s, .searched⟩ where
  offers := .searched (by simp) hs
  precedes j program' ho := by
    cases ho with
    | installed hname hfile =>
      cases (hlacks _ (List.mem_of_getElem? hname)).2.symm.trans hfile
    | searched hname hs' =>
      refine .inr ⟨rfl, Nat.le_of_not_lt fun hlt => ?_⟩
      cases (hbefore _ (mem_of_getElem?_append hlt hname)).symm.trans (search?_eq_some_iff.2 hs')

/-- A program that is searched for by a candidate that is not found by it. -/
theorem firstSearched?_eq_none (hfirst : h.firstSearched? candidates = none)
    (hname : name ∈ candidates) : ¬ h.Searched name s := fun hs => by
  have hsearch := Option.map_eq_none_iff.1 (List.findSome?_eq_none_iff.1 hfirst name hname)
  cases hsearch.symm.trans (search?_eq_some_iff.2 hs)

/-! ### What is located -/

variable {configured : Option String}

theorem locate_of_unnamed (hnone : configured.filter (· ≠ "") = none) :
    h.locate cwd candidates configured =
      (h.firstInstalled cwd candidates).map fun found => found.or (h.firstSearched? candidates) := by
  rw [locate, hnone]

/-- Without a name the work is stuck, or the least program that is offered is taken, or none is
offered. -/
theorem locate_cases (h : Host) (cwd : Path) (candidates : List String)
    (hnone : configured.filter (· ≠ "") = none) :
    (∃ p, h.IsStuck cwd candidates p ∧ h.locate cwd candidates configured = .error p) ∨
      (∃ i program, h.IsLeast cwd candidates i program ∧
        h.locate cwd candidates configured = .ok (some program)) ∨
      (∀ i program, ¬ h.Offers cwd candidates i program) ∧
        h.locate cwd candidates configured = .ok none := by
  rw [locate_of_unnamed hnone]
  rcases installed_cases h cwd candidates with hlacks | ⟨p, hstuck⟩ | ⟨before, name, after, rfl, hfile, hbefore⟩
  · rw [firstInstalled_of_lacks hlacks]
    refine .inr ?_
    cases hfirst : h.firstSearched? candidates with
    | some program =>
      obtain ⟨before, name, after, s, rfl, hs, rfl, hbefore⟩ := firstSearched?_eq_some hfirst
      exact .inl ⟨_, _, isLeast_searched hlacks hs hbefore, rfl⟩
    | none =>
      refine .inr ⟨fun i program ho => ?_, rfl⟩
      cases ho with
      | installed hname hfile => cases (hlacks _ (List.mem_of_getElem? hname)).2.symm.trans hfile
      | searched hname hs => exact firstSearched?_eq_none hfirst (List.mem_of_getElem? hname) hs
  · exact .inl ⟨p, hstuck, by rw [firstInstalled_of_isStuck hstuck]; rfl⟩
  · refine .inr (.inl ⟨_, _, isLeast_installed hbefore hfile, ?_⟩)
    rw [firstInstalled_of_isFile hbefore hfile]
    rfl

/-- A name cannot be looked up. -/
def IsStuckAt (h : Host) (cwd : Path) (name : String) (p : Path) : Prop :=
  '/' ∈ name.toList ∧ p = cwd.join (Path.ofText name) ∧ h.tree.isTooLong p = true

/-- With a name the work is stuck, or the program to which it leads is taken, or it leads to none. -/
theorem named_cases (h : Host) (cwd : Path) (name : String) :
    (∃ p, h.IsStuckAt cwd name p ∧ h.named cwd name = .error p) ∨
      (∃ program, h.Names cwd name program ∧ h.named cwd name = .ok (some program)) ∨
      (∀ program, ¬ h.Names cwd name program) ∧ h.named cwd name = .ok none := by
  by_cases hslash : '/' ∈ name.toList
  · rw [named, if_pos hslash]
    dsimp only
    cases hlong : h.tree.isTooLong (cwd.join (Path.ofText name)) with
    | true => exact .inl ⟨_, ⟨hslash, rfl, hlong⟩, rfl⟩
    | false =>
      refine .inr ?_
      cases hfile : h.tree.isFile (cwd.join (Path.ofText name)) with
      | true => exact .inl ⟨_, .file hslash hfile, rfl⟩
      | false =>
        refine .inr ⟨fun program hnames => ?_, rfl⟩
        cases hnames with
        | searched hslash' hs => exact hslash' hslash
        | file hslash' hfile' => cases hfile.symm.trans hfile'
  · rw [named, if_neg hslash]
    refine .inr ?_
    cases hsearch : h.search? name with
    | some s => exact .inl ⟨_, .searched hslash (search?_eq_some_iff.1 hsearch), rfl⟩
    | none =>
      refine .inr ⟨fun program hnames => ?_, rfl⟩
      cases hnames with
      | searched hslash' hs => cases hsearch.symm.trans (search?_eq_some_iff.2 hs)
      | file hslash' hfile' => exact hslash hslash'

/-- What a name leads to is one program. -/
theorem Names.unique (hn : h.Names cwd name program) (hn' : h.Names cwd name program') :
    program = program' := by
  cases hn with
  | searched hslash hs =>
    cases hn' with
    | searched _ hs' =>
      cases (search?_eq_some_iff.2 hs).symm.trans (search?_eq_some_iff.2 hs')
      rfl
    | file hslash' _ => exact absurd hslash' hslash
  | file hslash _ =>
    cases hn' with
    | searched hslash' _ => exact absurd hslash hslash'
    | file _ _ => rfl

/-- What a search comes to is told by what there is: it fails exactly where it is stuck, and where it
is not, it ends with the program that is taken, and with none exactly if there is nothing. -/
structure ComesTo (r : Except Path (Option Program)) (stuck : Path → Prop) (taken : Program → Prop)
    (nothing : Prop) : Prop where
  fails : ∀ p, r = .error p ↔ stuck p
  takes : (∀ p, ¬ stuck p) → ∀ program, r = .ok (some program) ↔ taken program
  misses : (∀ p, ¬ stuck p) → (r = .ok none ↔ nothing)

/-- A search that comes to one of three things, of which the second rules out the third and is one
program. -/
theorem ComesTo.of_cases {r : Except Path (Option Program)} {stuck : Path → Prop}
    {taken : Program → Prop} {nothing : Prop}
    (hcases : (∃ p, stuck p ∧ r = .error p) ∨ (∃ program, taken program ∧ r = .ok (some program)) ∨
      nothing ∧ r = .ok none)
    (hstuck : ∀ p, stuck p → r = .error p)
    (hunique : ∀ program program', taken program → taken program' → program = program')
    (hnothing : ∀ program, taken program → ¬ nothing) : ComesTo r stuck taken nothing := by
  refine ⟨fun p => ⟨fun hr => ?_, hstuck p⟩, fun hfree program => ?_, fun hfree => ?_⟩
  · rcases hcases with ⟨p', hp, hr'⟩ | ⟨_, _, hr'⟩ | ⟨_, hr'⟩ <;> cases hr.symm.trans hr'
    exact hp
  · rcases hcases with ⟨p', hp, _⟩ | ⟨program', htaken, rfl⟩ | ⟨hno, rfl⟩
    · exact absurd hp (hfree p')
    · constructor
      · rintro ⟨⟩
        exact htaken
      · intro h
        rw [hunique program program' h htaken]
    · exact iff_of_false (by rintro ⟨⟩) fun h => hnothing program h hno
  · rcases hcases with ⟨p', hp, _⟩ | ⟨program, htaken, rfl⟩ | ⟨hno, rfl⟩
    · exact absurd hp (hfree p')
    · exact iff_of_false (by rintro ⟨⟩) (hnothing program htaken)
    · exact iff_of_true rfl hno

/-- **The least program that is offered is taken.** Without a name, or with an empty one, the work
ends with a fault exactly where a candidate cannot be looked up before one is found installed.
Otherwise the program that is taken is the least one of all that are offered, and none is taken
exactly where none is offered. With a name that is not empty the program is taken to which it leads,
and none exactly where it leads to none, whatever the candidates are; the fault is that the name is
a path that is too long. -/
theorem locate_least (h : Host) (cwd : Path) (candidates : List String) :
    (∀ configured ∈ [none, some ""],
      ComesTo (h.locate cwd candidates configured) (h.IsStuck cwd candidates)
        (fun program => ∃ i, h.IsLeast cwd candidates i program)
        (∀ i program, ¬ h.Offers cwd candidates i program)) ∧
    ∀ name, name ≠ "" →
      ComesTo (h.locate cwd candidates (some name)) (h.IsStuckAt cwd name) (h.Names cwd name)
        (∀ program, ¬ h.Names cwd name program) := by
  refine ⟨fun configured hconfigured => ?_, fun name hname => ?_⟩
  · have hnone : configured.filter (· ≠ "") = none := by
      rcases List.mem_pair.1 hconfigured with rfl | rfl <;> rfl
    refine ComesTo.of_cases ?_ (fun p hstuck => ?_) ?_ ?_
    · rcases locate_cases h cwd candidates hnone with hfault | ⟨i, program, hleast, hq⟩ | hnothing
      · exact .inl hfault
      · exact .inr (.inl ⟨program, ⟨i, hleast⟩, hq⟩)
      · exact .inr (.inr hnothing)
    · rw [locate_of_unnamed hnone, firstInstalled_of_isStuck hstuck]
      rfl
    · rintro program program' ⟨i, hi⟩ ⟨j, hj⟩
      exact hi.unique hj
    · rintro program ⟨i, hi⟩ hnothing
      exact hnothing i program hi.offers
  · have hlocate : h.locate cwd candidates (some name) = h.named cwd name := by
      rw [locate, Option.filter_some, if_pos (decide_eq_true hname)]
    rw [hlocate]
    refine ComesTo.of_cases (named_cases h cwd name) ?_ (fun _ _ => Names.unique)
      fun program hnames hnothing => hnothing program hnames
    rintro p ⟨hslash, rfl, hlong⟩
    rw [named, if_pos hslash]
    exact if_pos hlong

namespace Sample

/-- A linter's second program is installed, its first one only on the search path. -/
def mixed : Host where
  tree := ⟨.folder [("bin", .folder [("tsgo", .file [] true)]),
    ("node_modules", .folder [(".bin", .folder [("tsc", .file [] true)])])]⟩
  searchPath := ["/bin"]

/-- A program is on the search path; what the project has of that name is a link. -/
def entangled (target : String) : Host where
  tree := ⟨.folder [("bin", .folder [("eslint", .file [] true)]),
    ("node_modules", .folder [(".bin", .folder [("eslint", .link target)])])]⟩
  searchPath := ["/bin"]

/-- A name of some octets. -/
def long (octets : Nat) : String := String.ofList (List.replicate octets 'a')

theorem ofText_long (n : Nat) : Path.ofText (long (n + 1)) = ⟨0, [long (n + 1)]⟩ := by
  have hlist : (long (n + 1)).toList = 'a' :: List.replicate n 'a' := String.toList_ofList
  have hwritten : Path.Written [long (n + 1)] := by
    refine List.forall_mem_singleton.2 ⟨?_, ?_⟩
    · simp [Path.isSegment, ← String.toList_inj, hlist]
    · simp [hlist]
  exact Path.ofText_text (p := ⟨0, [long (n + 1)]⟩) hwritten (Nat.zero_le _)

/-- A link to a name that is too long leads to a path that is. -/
theorem isTooLong_entangled {target : String} (hpath : Path.ofText target = ⟨0, [target]⟩)
    (hlong : Tree.maxName < target.utf8ByteSize) :
    (entangled target).tree.isTooLong (installed ⟨1, []⟩ "eslint") = true := by
  have hplace : installed ⟨1, []⟩ "eslint" = ⟨1, ["node_modules", ".bin", "eslint"]⟩ := by
    decide +kernel
  have hup : target ≠ ".." := by
    rintro rfl
    revert hlong
    decide +kernel
  have htrail : (entangled target).tree.trail ⟨1, ["node_modules", ".bin", "eslint"]⟩ =
      .error .tooLong := by
    have hmodules : ¬ Tree.maxName < "node_modules".utf8ByteSize := by decide +kernel
    have hbin : ¬ Tree.maxName < ".bin".utf8ByteSize := by decide +kernel
    have hname : ¬ Tree.maxName < "eslint".utf8ByteSize := by decide +kernel
    rw [Tree.trail, if_neg (by decide +kernel), if_neg (by decide +kernel)]
    simp [entangled, Tree.follow, Tree.maxLinks, Tree.descend, Tree.Trail.node, Node.child?,
      Path.isAbsolute, -Nat.not_lt, hmodules, hbin, hname, hpath, hlong, hup]
  rw [hplace, Tree.isTooLong, htrail]

end Sample

/-- A program that is installed is taken before one that the linter prefers. -/
theorem locate_least_mixed :
    Sample.mixed.locate ⟨1, []⟩ ["tsgo", "tsc"] none =
      .ok (some ⟨"tsc", "/node_modules/.bin/tsc", .installed⟩) := by
  have hleast : Sample.mixed.IsLeast ⟨1, []⟩ ["tsgo", "tsc"] 1
      ⟨"tsc", (installed ⟨1, []⟩ "tsc").text, .installed⟩ :=
    isLeast_installed (List.forall_mem_singleton.2 (by decide +kernel)) (by decide +kernel)
  have hfree (p : Path) : ¬ Sample.mixed.IsStuck ⟨1, []⟩ ["tsgo", "tsc"] p := fun hstuck => by
    have hfirst : Sample.mixed.firstInstalled ⟨1, []⟩ ["tsgo", "tsc"] = .ok _ :=
      firstInstalled_of_isFile (List.forall_mem_singleton.2 (by decide +kernel)) (by decide +kernel)
    cases hfirst.symm.trans (firstInstalled_of_isStuck hstuck)
  exact (((locate_least _ _ _).1 none List.mem_cons_self).takes hfree _).2 ⟨1, hleast⟩

/-- It is not so that a program is taken wherever one is offered. -/
theorem not_locate_offered : ¬ ∀ (h : Host) (cwd : Path) (candidates : List String) (i : Nat)
    (program : Program), h.Offers cwd candidates i program →
    ∃ found, h.locate cwd candidates none = .ok (some found) := by
  intro hall
  have hoffers : (Sample.entangled (Sample.long 256)).Offers ⟨1, []⟩ ["eslint"] 0
      ⟨"eslint", "/bin/eslint", .searched⟩ :=
    .searched rfl (search?_eq_some_iff.1 (by decide +kernel))
  have hstuck : (Sample.entangled (Sample.long 256)).IsStuck ⟨1, []⟩ ["eslint"]
      (installed ⟨1, []⟩ "eslint") :=
    ⟨[], "eslint", [], rfl, rfl,
      Sample.isTooLong_entangled (Sample.ofText_long 255) (by decide +kernel), List.forall_mem_nil _⟩
  obtain ⟨found, hfound⟩ := hall _ _ _ _ _ hoffers
  rw [locate_of_unnamed rfl, firstInstalled_of_isStuck hstuck] at hfound
  cases hfound

end Host
end LintMerge
