/-
# The grammar of scripts

Commands are separated by semicolons and line ends. A reserved word counts as such
only where a command may start.
-/

import LintMerge.Shell.Token

namespace LintMerge
namespace Shell

/-- The words that close a list of commands. -/
def closingWords : List String := ["then", "elif", "else", "fi", "do", "done", "esac", "\x7d"]

/-- Whether a token closes a list of commands. -/
def Token.closes : Token → Bool
  | .word _ w => (Shell.literal? w).any fun s => closingWords.contains s
  | .operator s => s = ";;" || s = ")"
  | _ => false

/-- The word that a token is, if it holds nothing but text without quotes. -/
def Token.literal? : Token → Option String
  | .word _ w => Shell.literal? w
  | _ => none

/-- The tokens after a reserved word. -/
def expect? (word : String) : List Token → Option (List Token)
  | t :: rest => if t.literal? = some word then some rest else none
  | [] => none

/-- The tokens after any separators. -/
def skipSeparators : List Token → List Token
  | .newline :: rest => skipSeparators rest
  | .operator ";" :: rest => skipSeparators rest
  | ts => ts

/-- The tokens after any line ends. -/
def skipLines : List Token → List Token
  | .newline :: rest => skipLines rest
  | ts => ts

/-- A setting of a variable. -/
def setting? : Word → Option (String × Word)
  | .text s false :: rest =>
    let name := s.takeWhile (· ≠ '=')
    if isName name ∧ name.length < s.length then
      some (String.ofList name, .text (s.drop (name.length + 1)) true :: rest)
    else none
  | _ => none

/-- Where a redirection of a stream leads, after its operator. -/
def target? (stream : Nat) (operator : String) (t : Token) : Option Redirection :=
  match operator, t.literal? with
  | ">&", some "1" => some (.onto stream 1)
  | ">&", some "2" => some (.onto stream 2)
  | ">", some "/dev/null" | ">>", some "/dev/null" => some (.away stream)
  | "<", some "/dev/null" => some (.away 0)
  | _, _ => none

/-- A redirection, and the tokens after it. -/
def redirection? : List Token → Option (Redirection × List Token)
  | .operator o :: t :: rest => (target? 1 o t).map (·, rest)
  | .stream n :: .operator o :: t :: rest => (target? n o t).map (·, rest)
  | _ => none

/-- The redirections at the start of some tokens, and the tokens after them; `fuel` is the
number of tokens. -/
def redirections : (fuel : Nat) → List Token → List Redirection × List Token
  | 0, ts => ([], ts)
  | fuel + 1, ts =>
    match redirection? ts with
    | some (r, rest) =>
      let (rs, rest) := redirections fuel rest
      (r :: rs, rest)
    | none => ([], ts)

/-- A command with the redirections after it, and the tokens after those. -/
def redirected (c : Command) (ts : List Token) : Command × List Token :=
  match redirections ts.length ts with
  | ([], rest) => (c, rest)
  | (rs, rest) => (.redirected c rs, rest)

/-- The patterns of a clause up to its bracket, and the tokens after that. -/
def patterns? : List Token → Option (List Word × List Token)
  | .word _ w :: .operator ")" :: rest => some ([w], rest)
  | .word _ w :: .operator "|" :: rest => (patterns? rest).map fun (ws, more) => (w :: ws, more)
  | _ => none

/-- A simple command, of which some is read, and the tokens after it; `fuel` is the
number of tokens. -/
def simple? : (fuel : Nat) → (line : Nat) → (settings : List (String × Word)) → (words : List Word) →
    (redirections : List Redirection) → List Token → Option (Command × List Token)
  | 0, _, _, _, _, _ => none
  | fuel + 1, line, settings, words, redirections, ts =>
    match redirection? ts with
    | some (r, rest) => simple? fuel line settings words (redirections ++ [r]) rest
    | none =>
      match ts with
      | .word _ w :: rest =>
        match if words.isEmpty then setting? w else none with
        | some s => simple? fuel line (settings ++ [s]) words redirections rest
        | none => simple? fuel line settings (words ++ [w]) redirections rest
      | _ =>
        if settings.isEmpty ∧ words.isEmpty ∧ redirections.isEmpty then none
        else some (.simple line settings words redirections, ts)

/-- The words up to the end of a list, and the tokens after it. -/
def wordsUntilEnd : List Token → List Word × List Token
  | .word _ w :: rest =>
    let (ws, more) := wordsUntilEnd rest
    (w :: ws, more)
  | ts => ([], ts)

mutual

/-- Commands up to a closing word or the end, and the tokens after them. -/
def commands? : (fuel : Nat) → List Token → Option (List Command × List Token)
  | 0, _ => none
  | fuel + 1, ts =>
    match skipSeparators ts with
    | [] => some ([], [])
    | t :: rest =>
      if t.closes then some ([], t :: rest)
      else do
        let (first, more) ← oneCommand? fuel (t :: rest)
        let (c, more) ← chain? fuel first more
        match more with
        | [] => return ([c], [])
        | .newline :: _ | .operator ";" :: _ =>
          let (cs, more) ← commands? fuel more
          return (c :: cs, more)
        | t :: rest => if t.closes then return ([c], t :: rest) else none

/-- A command with those that depend on its outcome, and the tokens after them. -/
def chain? : (fuel : Nat) → Command → List Token → Option (Command × List Token)
  | 0, _, _ => none
  | fuel + 1, first, .operator "&&" :: rest => do
    let (second, more) ← oneCommand? fuel (skipLines rest)
    chain? fuel (.both first second) more
  | fuel + 1, first, .operator "||" :: rest => do
    let (second, more) ← oneCommand? fuel (skipLines rest)
    chain? fuel (.either first second) more
  | _, first, ts => some (first, ts)

/-- A command, and the tokens after it. -/
def oneCommand? : (fuel : Nat) → List Token → Option (Command × List Token)
  | 0, _ => none
  | _, [] => none
  | fuel + 1, .operator "(" :: rest => do
    match ← commands? fuel rest with
    | (body, .operator ")" :: more) => return redirected (.apart body) more
    | _ => none
  | fuel + 1, t :: rest =>
    match t.literal? with
    | some "!" => (oneCommand? fuel rest).map fun (c, more) => (.negation c, more)
    | some "\x7b" => do
      let (body, more) ← commands? fuel rest
      return redirected (.group body) (← expect? "\x7d" more)
    | some "if" => do
      let (clauses, otherwise, more) ← clauses? fuel rest
      return redirected (.branch clauses otherwise) more
    | some "while" => repetition? fuel true rest
    | some "until" => repetition? fuel false rest
    | some "for" =>
      match rest with
      | n :: rest => do
        let name ← n.literal?
        let (items, rest) :=
          match expect? "in" (skipLines rest) with
          | some rest =>
            let (ws, more) := wordsUntilEnd rest
            (some ws, more)
          | none => (none, rest)
        let (body, more) ← commands? fuel (← expect? "do" (skipSeparators rest))
        return redirected (.each name items body) (← expect? "done" more)
      | [] => none
    | some "case" =>
      match rest with
      | .word _ subject :: rest => do
        let (clauses, more) ← choices? fuel (← expect? "in" (skipLines rest))
        return redirected (.choice subject clauses) more
      | _ => none
    | _ =>
      let line := match t with
        | .word line _ => line
        | _ => 0
      simple? (rest.length + 2) line [] [] [] (t :: rest)

/-- The clauses of a choice, and the tokens after its last word. -/
def choices? : (fuel : Nat) → List Token → Option (List (List Word × List Command) × List Token)
  | 0, _ => none
  | fuel + 1, ts =>
    let ts := skipLines ts
    match expect? "esac" ts with
    | some rest => some ([], rest)
    | none => do
      let (ps, more) ← patterns? (match ts with
        | .operator "(" :: rest => rest
        | ts => ts)
      let (body, more) ← commands? fuel more
      let (clauses, more) ← choices? fuel (match more with
        | .operator ";;" :: rest => rest
        | ts => ts)
      return ((ps, body) :: clauses, more)

/-- The clauses of a branch after its first word, the commands otherwise, and the tokens
after them. -/
def clauses? : (fuel : Nat) → List Token →
    Option (List (List Command × List Command) × List Command × List Token)
  | 0, _ => none
  | fuel + 1, ts => do
    let (condition, more) ← commands? fuel ts
    let (body, more) ← commands? fuel (← expect? "then" more)
    match more with
    | t :: rest =>
      match t.literal? with
      | some "fi" => return ([(condition, body)], [], rest)
      | some "else" =>
        let (otherwise, more) ← commands? fuel rest
        return ([(condition, body)], otherwise, ← expect? "fi" more)
      | some "elif" =>
        let (clauses, otherwise, more) ← clauses? fuel rest
        return ((condition, body) :: clauses, otherwise, more)
      | _ => none
    | [] => none

/-- A loop after its first word, and the tokens after it. -/
def repetition? : (fuel : Nat) → Bool → List Token → Option (Command × List Token)
  | 0, _, _ => none
  | fuel + 1, expected, ts => do
    let (condition, more) ← commands? fuel ts
    let (body, more) ← commands? fuel (← expect? "do" more)
    return redirected (.loop condition body expected) (← expect? "done" more)

end

/-- The commands of a script, if it can be read. -/
def read? (s : List Char) : Option (List Command) := do
  let ts ← tokens s
  match ← commands? (4 * ts.length + 4) ts with
  | (cs, []) => some cs
  | _ => none

end Shell
end LintMerge
