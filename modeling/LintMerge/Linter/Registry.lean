/-
# Registries

A registry (`LinterRegistry`) holds tools in the order in which they were registered, each under the
name of its linter, which no other has. Which tool is meant by a name is for the registry to say:
one may hold a tool of its own for a linter that has another built in.
-/

import LintMerge.Linter.Tool

namespace LintMerge

/-- Tools to choose from. -/
structure Registry where
  tools : List Tool := []
  nodup : (tools.map (·.linter)).Nodup := by decide

namespace Registry

/-- The linters of which a registry holds tools. -/
def linters (r : Registry) : List Linter := r.tools.map (·.linter)

/-- The registry of some linters, of which it holds the tools that are built in. -/
def ofLinters (ls : List Linter) (h : ls.Nodup) : Registry where
  tools := ls.map Linter.tool
  nodup := by rwa [List.map_map, show (·.linter) ∘ Linter.tool = id from rfl, List.map_id]

/-- The registry of all tools that are built in (`DEFAULT_REGISTRY`). -/
def builtin : Registry := ofLinters Linter.all (by decide)

/-- The tool of a name. -/
def get? (r : Registry) (name : String) : Option Tool := r.tools.find? fun t => t.linter.name = name

/-- What is said of a linter that has a tool already. -/
def duplicateMessage (l : Linter) : String := s!"Linter '{l.name}' already registered"

/-- A registry with one more tool, none if there is one of the same linter already. -/
def register? (r : Registry) (t : Tool) : Option Registry :=
  if h : t.linter ∈ r.linters then none
  else some
    { tools := r.tools ++ [t]
      nodup := by
        rw [List.map_append, List.nodup_append]
        refine ⟨r.nodup, by simp, ?_⟩
        rintro _ hl l hl' rfl
        have htwice : _ = t.linter := List.mem_singleton.1 hl'
        exact h (htwice ▸ hl) }

/-- A registry of some tools, or the first of a linter that is there twice. -/
def ofList (ts : List Tool) : Except Linter Registry :=
  ts.foldlM (fun r t =>
    match r.register? t with
    | some r => .ok r
    | none => .error t.linter) {}

/-- The registry that is meant by one that may be empty: that of all tools that are built in, in the
place of an empty one. -/
def orBuiltin (r : Registry) : Registry := if r.tools.isEmpty then builtin else r

/-- What is said of a name that a registry has no tool of. -/
def unknownMessage (name : String) : String := s!"Unknown linter '{name}'"

/-- The tools of some names, or the first name of none (`Orchestrator.adapters_for`). -/
def pick (r : Registry) (names : List String) : Except String (List Tool) :=
  names.mapM fun name =>
    match r.get? name with
    | some t => .ok t
    | none => .error name

theorem mem_of_get? {r : Registry} {name : String} {t : Tool} (h : r.get? name = some t) :
    t ∈ r.tools := List.mem_of_find?_eq_some h

theorem name_of_get? {r : Registry} {name : String} {t : Tool} (h : r.get? name = some t) :
    t.linter.name = name := by simpa using List.find?_some h

end Registry
end LintMerge
