/-
# Running scripts

What `run_process` leaves to the system. A program is found by its path or along the search path.
Scripts run in a shell; of other programs only a few of the system are known. A script that never
ends runs out of time, as does one that sleeps for too long.
-/

import LintMerge.Shell.Grammar
import LintMerge.Shell.Machine

namespace LintMerge
namespace Shell

/-- Why a program cannot be started. -/
inductive StartFault where
  | missing
  | denied
  | notFolder
  | badFormat
  | tooManyLinks
  | tooLong
  deriving DecidableEq, Repr

/-- A program that can be started. -/
inductive Executable where
  /-- one of the system -/
  | system (name : String)
  /-- a script, with the path of the program that its first line names and an argument -/
  | script (path : String) (interpreter : String) (argument : List String) (text : List Char)
  deriving Repr

/-- The programs of the system that are known. -/
def systemPrograms : List String :=
  ["sh", "dash", "env", "sleep", "cat", "echo", "printf", "pwd", "test", "[", "true", "false"]

/-- Whether a path leads to a program of the system. -/
def systemProgram? (p : Path) : Option String :=
  match p.segments with
  | ["bin", name] | ["usr", "bin", name] => if systemPrograms.contains name then some name else none
  | _ => none

/-- The program that the first line of a script names, with an argument. -/
def interpreter? (text : List Char) : Option (String × List String) :=
  match text with
  | '#' :: '!' :: rest =>
    let line := (rest.takeWhile (· ≠ '\n')).dropWhile fun c => c = ' ' || c = '\t'
    let isSpace (c : Char) : Bool := c = ' ' || c = '\t'
    let name := line.takeWhile (!isSpace ·)
    let argument := ((line.drop name.length).dropWhile isSpace).reverse.dropWhile isSpace
    if name.isEmpty then none
    else some (String.ofList name, if argument.isEmpty then [] else [String.ofList argument.reverse])
  | _ => none

/-- What a path leads to. -/
def executable (t : Tree) (cwd : Path) (path : String) : Except StartFault Executable :=
  let p := cwd.join (Path.ofText path)
  match systemProgram? p with
  | some name => .ok (.system name)
  | none =>
    match t.node p with
    | .error .missing => .error .missing
    | .error .notFolder => .error .notFolder
    | .error .tooManyLinks => .error .tooManyLinks
    | .error .tooLong => .error .tooLong
    | .ok (.file content true) =>
      let text := Text.Utf8.decodeLossy content
      match interpreter? text with
      | none => .error .badFormat
      | some (interpreter, argument) => .ok (.script path interpreter argument text)
    | .ok _ => .error .denied

/-- The first of some paths that leads to a program. A path that leads to nothing is
passed over; the fault of another is kept for the case that none leads to one. -/
def firstExecutable (t : Tree) (cwd : Path) (fault : StartFault) :
    List String → Except StartFault (String × Executable)
  | [] => .error fault
  | path :: rest =>
    match executable t cwd path with
    | .ok e => .ok (path, e)
    | .error f => firstExecutable t cwd (if f = .missing ∨ f = .notFolder then fault else f) rest

/-- The parts of a text between colons. -/
def searchFolders (s : String) : List String := (Text.splitOn ':' s.toList).map String.ofList

/-- The program of a name, with the path that leads to it. -/
def findProgram (t : Tree) (cwd : Path) (folders : List String) (name : String) :
    Except StartFault (String × Executable) :=
  if '/' ∈ name.toList then (executable t cwd name).map (name, ·)
  else firstExecutable t cwd .missing (folders.map fun f => if f.endsWith "/" then f ++ name else f ++ "/" ++ name)

/-- The milliseconds that a text of seconds stands for. -/
def milliseconds (s : List Char) : Nat :=
  let whole := s.takeWhile (· ≠ '.')
  let fraction := ((s.drop (whole.length + 1)).takeWhile Char.isDigit ++ ['0', '0', '0']).take 3
  ((String.ofList whole).toNat?.getD 0) * 1000 + (String.ofList fraction).toNat?.getD 0

/-- The result of running commands: the shell goes on, or it has ended. -/
abbrev Course := Except (Ending × Machine) Machine

/-- What was printed after an earlier state, in order. -/
def printedSince (now before : List (List UInt8)) : List UInt8 :=
  ((now.take (now.length - before.length)).reverse).flatten

/-- A shell in which what was printed since an earlier one goes where redirections lead. -/
def Machine.led (now before : Machine) (redirections : List Redirection) : Machine :=
  let places := redirections.foldl Places.after before.places
  (({ now with places := before.places, out := before.out, err := before.err }.put places.out
    (printedSince now.out before.out)).put places.err (printedSince now.err before.err))

/-- A course led where redirections lead. -/
def Course.led (c : Course) (before : Machine) (redirections : List Redirection) : Course :=
  match c with
  | .ok now => .ok (now.led before redirections)
  | .error (ending, now) => .error (ending, now.led before redirections)

/-- A shell after another one that ran inside it. -/
def Machine.after (m inner : Machine) (status : Nat) : Machine :=
  { m with out := inner.out, err := inner.err, clock := inner.clock, status }

/-- The status that an ending leaves in the shell that started a program. -/
def Ending.status : Ending → Nat
  | exited code => code
  | killed signal => 128 + signal
  | outOfTime => 124

/-- The signal of a name or number. -/
def signal? (s : List Char) : Option Nat :=
  match String.ofList s with
  | "HUP" | "SIGHUP" | "1" => some 1
  | "INT" | "SIGINT" | "2" => some 2
  | "QUIT" | "SIGQUIT" | "3" => some 3
  | "ABRT" | "SIGABRT" | "6" => some 6
  | "KILL" | "SIGKILL" | "9" => some 9
  | "USR1" | "SIGUSR1" | "10" => some 10
  | "SEGV" | "SIGSEGV" | "11" => some 11
  | "USR2" | "SIGUSR2" | "12" => some 12
  | "PIPE" | "SIGPIPE" | "13" => some 13
  | "ALRM" | "SIGALRM" | "14" => some 14
  | "TERM" | "SIGTERM" | "15" => some 15
  | _ => none

/-- The signal that a command sends to the shell itself. -/
def ownSignal? : List (List Char) → Option Nat
  | [id] => if id = Machine.ownId.toList then some 15 else none
  | [['-', 's'], name, id] => if id = Machine.ownId.toList then signal? name else none
  | ['-' :: name, id] => if id = Machine.ownId.toList then signal? name else none
  | _ => none

/-- A shell that starts another program with the variables that are exported. -/
def Machine.child (m : Machine) (name : String) (args : List (List Char)) : Machine :=
  { m with name, args, out := [], err := [], status := 0, vars := m.vars.filter (·.exported) }

/-- How a program of the system that is no shell ends. -/
def Machine.systemEnding (m : Machine) (name : String) : Ending × Machine :=
  match name, m.args with
  | "sleep", args =>
    let clock := m.clock + args.foldl (fun n a => n + milliseconds a) 0
    if m.limit ≤ clock then (.outOfTime, { m with clock := m.limit }) else (.exited 0, { m with clock })
  | "cat", _ => (.exited 0, m)
  | "env", [] =>
    (.exited 0, m.print (m.vars.flatMap fun v => Builtin.octets (v.name.toList ++ '=' :: v.value ++ ['\n'])))
  | "env", _ => (.exited 0, m)
  | name, args =>
    match effect? m 1 name args with
    | some e => (.exited e.status, (m.print e.out).complain e.err)
    | none => (.exited 127, m)

/-- The ending of commands that came to their end. -/
def ended : Course → Ending × Machine
  | .ok m => (.exited m.status, m)
  | .error e => e

mutual

/-- Runs commands one after the other. -/
def runAll : (fuel : Nat) → Machine → List Command → Course
  | 0, m, _ => .error (.outOfTime, m)
  | _, m, [] => .ok m
  | fuel + 1, m, c :: rest =>
    match run fuel m c with
    | .ok m => runAll fuel m rest
    | .error e => .error e

/-- Runs a command. -/
def run : (fuel : Nat) → Machine → Command → Course
  | 0, m, _ => .error (.outOfTime, m)
  | fuel + 1, m, .simple line settings words redirections =>
    let m' := settings.foldl (fun m (name, w) => m.set name (m.textOf w) (!words.isEmpty)) m
    match words.flatMap m.fieldsOf with
    | [] => .ok { m' with status := 0 }
    | [['e', 'x', 'e', 'c']] =>
      .ok { m' with places := redirections.foldl Places.after m.places, status := 0 }
    | name :: args =>
      (match runNamed fuel { m' with places := {} } line (String.ofList name) args with
      | .ok after =>
        .ok { after with vars := if settings.isEmpty then after.vars else m.vars }
      | .error e => .error e : Course).led m redirections
  | fuel + 1, m, .redirected c redirections => (run fuel { m with places := {} } c : Course).led m redirections
  | fuel + 1, m, .choice subject clauses =>
    let s := m.textOf subject
    match clauses.find? fun (patterns, _) => patterns.any fun p => Machine.fits (m.patternOf p) s with
    | some (_, body) => runAll fuel { m with status := 0 } body
    | none => .ok { m with status := 0 }
  | fuel + 1, m, .apart body =>
    match runAll fuel m body with
    | .ok inner => .ok (m.after inner inner.status)
    | .error (.exited code, inner) => .ok (m.after inner code)
    | .error e => .error e
  | fuel + 1, m, .branch clauses otherwise => runBranch fuel m clauses otherwise
  | fuel + 1, m, .loop condition body expected => runLoop fuel m condition body expected 0
  | fuel + 1, m, .each name items body =>
    runEach fuel { m with status := 0 } name ((items.map fun ws => ws.flatMap m.fieldsOf).getD m.args) body
  | fuel + 1, m, .group body => runAll fuel m body
  | fuel + 1, m, .both first second =>
    match run fuel m first with
    | .ok m => if m.status = 0 then run fuel m second else .ok m
    | .error e => .error e
  | fuel + 1, m, .either first second =>
    match run fuel m first with
    | .ok m => if m.status = 0 then .ok m else run fuel m second
    | .error e => .error e
  | fuel + 1, m, .negation c =>
    match run fuel m c with
    | .ok m => .ok { m with status := if m.status = 0 then 1 else 0 }
    | .error e => .error e

/-- Runs the first clause whose condition holds. -/
def runBranch : (fuel : Nat) → Machine → List (List Command × List Command) → List Command → Course
  | 0, m, _, _ => .error (.outOfTime, m)
  | fuel + 1, m, [], otherwise => runAll fuel { m with status := 0 } otherwise
  | fuel + 1, m, (condition, body) :: rest, otherwise =>
    match runAll fuel m condition with
    | .ok m => if m.status = 0 then runAll fuel m body else runBranch fuel m rest otherwise
    | .error e => .error e

/-- Repeats a body; `status` is that of its last round. -/
def runLoop : (fuel : Nat) → Machine → List Command → List Command → Bool → (status : Nat) → Course
  | 0, m, _, _, _, _ => .error (.outOfTime, m)
  | fuel + 1, m, condition, body, expected, status =>
    match runAll fuel m condition with
    | .error e => .error e
    | .ok m =>
      if decide (m.status = 0) = expected then
        match runAll fuel m body with
        | .ok m => runLoop fuel m condition body expected m.status
        | .error e => .error e
      else .ok { m with status }

/-- Runs a body for each value. -/
def runEach : (fuel : Nat) → Machine → String → List (List Char) → List Command → Course
  | 0, m, _, _, _ => .error (.outOfTime, m)
  | _, m, _, [], _ => .ok m
  | fuel + 1, m, name, value :: rest, body =>
    match runAll fuel (m.set name value) body with
    | .ok m => runEach fuel m name rest body
    | .error e => .error e

/-- Runs the command of a name. -/
def runNamed : (fuel : Nat) → Machine → (line : Nat) → String → List (List Char) → Course
  | 0, m, _, _, _ => .error (.outOfTime, m)
  | fuel + 1, m, line, name, args =>
    match effect? m line name args with
    | some e => .ok { (m.print e.out).complain e.err with status := e.status }
    | none =>
      match name with
      | "exit" =>
        .error (.exited (((args.head?.map String.ofList).bind String.toNat?).getD m.status % 256), m)
      | "kill" =>
        match ownSignal? args with
        | some 0 => .ok { m with status := 0 }
        | some n => .error (.killed n, m)
        | none => .ok { m with status := 1 }
      | "cd" =>
        let target := Path.absolute m.cwd (String.ofList (args.headD (m.lookUp "HOME")))
        if m.tree.isFolder target then .ok { m with cwd := target, status := 0 }
        else .ok { m.complainAt line s!"cd: can't cd to {String.ofList (args.headD [])}" with status := 2 }
      | "shift" =>
        .ok { m with
          args := m.args.drop (((args.head?.map String.ofList).bind String.toNat?).getD 1)
          status := 0 }
      | "export" =>
        .ok (args.foldl (fun m a =>
          let name := a.takeWhile (· ≠ '=')
          let value := if name.length < a.length then a.drop (name.length + 1) else m.lookUp (String.ofList name)
          m.set (String.ofList name) value true) { m with status := 0 })
      | "unset" => .ok (args.foldl (fun m a => m.unset (String.ofList a)) { m with status := 0 })
      | "read" =>
        -- the input is at its end
        .ok (args.foldl (fun m a => if a.head? = some '-' then m else m.set (String.ofList a) [])
          { m with status := 1 })
      | "set" => .ok { m with status := 0 }
      | "exec" =>
        match args with
        | [] => .ok m
        | name :: args =>
          match runProgram fuel m line (String.ofList name) args with
          | .ok m => .error (.exited m.status, m)
          | .error e => .error e
      | name => runProgram fuel m line name args

/-- Runs a program that is not part of the shell. -/
def runProgram : (fuel : Nat) → Machine → (line : Nat) → String → List (List Char) → Course
  | 0, m, _, _, _ => .error (.outOfTime, m)
  | fuel + 1, m, line, name, args =>
    match findProgram m.tree m.cwd (searchFolders (String.ofList (m.lookUp "PATH"))) name with
    | .ok (path, e) =>
      match start fuel (m.child path args) e with
      | (ending, c) =>
        let after := (({ m with clock := c.clock }).print (printedSince c.out [])).complain (printedSince c.err [])
        if ending = .outOfTime then .error (.outOfTime, after) else .ok { after with status := ending.status }
    | .error .missing => .ok { m.complainAt line s!"{name}: not found" with status := 127 }
    | .error .notFolder => .ok { m.complainAt line s!"{name}: not found" with status := 127 }
    | .error _ => .ok { m.complainAt line s!"{name}: Permission denied" with status := 126 }

/-- Runs a program to its end in a fresh shell, which holds its name and arguments. -/
def start : (fuel : Nat) → Machine → Executable → Ending × Machine
  | 0, m, _ => (.outOfTime, m)
  | fuel + 1, m, .script path interpreter argument text =>
    match executable m.tree m.cwd interpreter with
    | .ok (.system "env") =>
      let name := argument.headD ""
      match findProgram m.tree m.cwd (searchFolders (String.ofList (m.lookUp "PATH"))) name with
      | .ok (_, e) => start fuel { m with name, args := path.toList :: m.args } e
      | .error _ =>
        (.exited 127, m.complain (Builtin.octets
          s!"{interpreter}: ‘{name}’: No such file or directory\n".toList))
    | .ok _ => runText fuel { m with name := path } text
    | .error _ => (.exited 126, m)
  | fuel + 1, m, .system name =>
    if name = "sh" ∨ name = "dash" then startShell fuel m m.args else m.systemEnding name

/-- Runs a shell to its end, over the text that its arguments name. -/
def startShell : (fuel : Nat) → Machine → List (List Char) → Ending × Machine
  | 0, m, _ => (.outOfTime, m)
  | _, m, [] => (.exited 0, m)
  | fuel + 1, m, file :: rest =>
    if file.head? = some '-' then
      if 'c' ∈ file then
        match rest with
        | [] => (.exited 2, m.complain (Builtin.octets s!"{m.name}: 0: -c requires an argument\n".toList))
        | text :: more =>
          runText fuel { m with name := (more.head?.map String.ofList).getD m.name, args := more.drop 1 } text
      else startShell fuel m rest
    else
      match m.tree.read? (m.cwd.join (Path.ofText (String.ofList file))) with
      | some octets =>
        runText fuel { m with name := String.ofList file, args := rest } (Text.Utf8.decodeLossy octets)
      | none =>
        (.exited 2, m.complain (Builtin.octets
          s!"{m.name}: 0: cannot open {String.ofList file}: No such file\n".toList))

/-- Runs the text of a script to its end. -/
def runText : (fuel : Nat) → Machine → List Char → Ending × Machine
  | 0, m, _ => (.outOfTime, m)
  | fuel + 1, m, text =>
    match read? text with
    | some cs => ended (runAll fuel m cs)
    | none => (.exited 2, m.complainAt 1 "Syntax error")

end

end Shell
end LintMerge
