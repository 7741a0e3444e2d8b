import FlowWitness.Solver.Session

/-!
# Stand-in processes

A process that answers by a script in place of a real solver.  It notes every
line it is sent.  A line that asks for an answer takes the next reply of the
script; when the script has run out, or says so, the process closes its
output and goes on listening.
-/

namespace FlowWitness.Solver

open FlowWitness.Settings
open FlowWitness.Text

/-- What a stand-in does when it is asked. -/
inductive Reply where
  | write (output : List Glyph)
  | writeAndExit (output : List Glyph)
  | hang
  | closeOutput
  deriving DecidableEq, Repr

/-- The script of a stand-in, and whether it goes on when told to exit. -/
structure StandInScript where
  replies : List Reply
  ignoresExit : Bool
  deriving DecidableEq, Repr

/-- A stand-in process. -/
structure StandIn where
  script : StandInScript
  received : List String
  outputClosed : Bool
  exited : Bool
  deriving DecidableEq, Repr

namespace StandIn

/-- A stand-in that has just been started. -/
def fresh (script : StandInScript) : StandIn := ⟨script, [], false, false⟩

/-- Does the line ask for an answer? -/
def isQuery (line : String) : Bool :=
  "(check-sat".toList.isPrefixOf line.toList ||
    "(get-value".toList.isPrefixOf line.toList

/-- The line that tells a process to exit. -/
def exitLine : String := "(exit)"

/-- Take the next reply of the script. -/
def answer (standIn : StandIn) : List Glyph × StandIn :=
  if standIn.outputClosed then ([], standIn)
  else
    match standIn.script.replies with
    | [] => ([], { standIn with outputClosed := true })
    | reply :: rest =>
      let standIn :=
        { standIn with script := { standIn.script with replies := rest } }
      match reply with
      | .write output => (output, standIn)
      | .writeAndExit output =>
        (output, { standIn with outputClosed := true, exited := true })
      | .hang => ([], standIn)
      | .closeOutput => ([], { standIn with outputClosed := true })

/-- Read one line, unless the process has exited. -/
def readLine (standIn : StandIn) (line : String) : List Glyph × StandIn :=
  if standIn.exited then ([], standIn)
  else
    let standIn := { standIn with received := standIn.received ++ [line] }
    if isQuery line then standIn.answer
    else if line = exitLine && !standIn.script.ignoresExit then
      ([], { standIn with outputClosed := true, exited := true })
    else ([], standIn)

/-- Read lines in order. -/
def readLines (standIn : StandIn) : List String → List Glyph × StandIn
  | [] => ([], standIn)
  | line :: rest =>
    let (output, next) := standIn.readLine line
    let (further, final) := next.readLines rest
    (output ++ further, final)

/-- A command is read line by line; once exited, nobody reads. -/
def accept (command : String) (standIn : StandIn) :
    Except IoFault Reaction × StandIn :=
  if standIn.exited then (.error .brokenPipe, standIn)
  else
    let (output, next) := standIn.readLines (command.splitOn "\n")
    (.ok ⟨output, next.outputClosed⟩, next)

/-- The lines received up to and including the last query. -/
def throughLastQuery (lines : List String) : List String :=
  (lines.reverse.dropWhile (fun line => !isQuery line)).reverse

/--
The lines that were surely received: all of them if the process was told to
exit, and otherwise those up to the last query.
-/
def transcript (standIn : StandIn) : List String :=
  if standIn.received.contains exitLine then standIn.received
  else throughLastQuery standIn.received

/-- Stand-ins as processes. -/
def process : SolverProcess StandIn := ⟨accept⟩

end StandIn

/--
A site that can start one program: the name of it, and the scripts of the
processes that will be started, in order.
-/
structure StandInSite where
  program : String
  scripts : List StandInScript
  deriving DecidableEq, Repr

namespace StandInSite

/-- The name of the program that can be started. -/
def standardProgram : String := "stand-in"

/-- The parts of a path between slashes. -/
def pathParts (program : String) : List String :=
  (program.splitOn "/").filter (fun part => !part.isEmpty)

/-- Does the path lead to the root, or to a directory by dots alone? -/
def isBarePath (program : String) : Bool :=
  !program.isEmpty && (pathParts program).all (fun part =>
    part = "." || part = "..")

/-- Does the path lead to something that every system has, but cannot start? -/
def isSystemPath (program : String) : Bool :=
  program.startsWith "/" &&
    [["bin"], ["dev"], ["dev", "null"], ["etc"], ["etc", "hosts"],
      ["etc", "passwd"], ["home"], ["lib"], ["opt"], ["proc"], ["root"],
      ["sys"], ["tmp"], ["usr"], ["usr", "bin"], ["usr", "lib"],
      ["usr", "local"], ["var"]].contains (pathParts program)

/-- Why a program other than the one there is cannot be started. -/
def launchFault (program : String) : IoFault :=
  if program.toList.contains (Char.ofNat 0) then
    .other "nul byte found in provided data"
  else if isBarePath program || isSystemPath program then .notPermitted
  else .notFound

/-- Start the next process. -/
def launch (settings : SolverSettings) (site : StandInSite) :
    Except SolverError StandIn × StandInSite :=
  if settings.program = site.program then
    match site.scripts with
    | [] => (.ok (.fresh ⟨[], false⟩), site)
    | script :: rest => (.ok (.fresh script), { site with scripts := rest })
  else
    (.error (.spawn settings.program (launchFault settings.program)), site)

/-- The site as a host of processes. -/
def host : Host StandInSite StandIn := ⟨launch⟩

end StandInSite

end FlowWitness.Solver
