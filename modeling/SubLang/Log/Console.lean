import SubLang.Log.Layout
import SubLang.Settings.Lookup

/-!
The console: at most one handler of log records that belongs to the program, among any others.

A console is opened on a stream and keeps it. Each time a level is applied its handler is replaced, so
that the colours are those of the moment.
-/

namespace SubLang

/-- Whether the environment asks for codes, or for none; asking for them counts more. -/
def Environment.colourPolicy (env : Environment) : ColourPolicy :=
  if (List.lookup forceColour env).isSome then .always
  else if (List.lookup noColour env).isSome then .never
  else .asLaidOut

/-- What writes records to a stream. No two handlers have the same number. -/
structure Handler where
  id : Nat
  stream : String
  level : Int
  layout : Layout
  deriving DecidableEq, Repr

structure Console where
  stream : String
  handler : Handler
  deriving DecidableEq, Repr

/-- All that decides where records go: the level below which they are dropped, the handlers, the number
of the next one, and the console. -/
structure Logging where
  level : Int
  handlers : List Handler
  nextId : Nat
  console? : Option Console
  deriving DecidableEq, Repr

def plainLayout : Layout :=
  ⟨.ofText "%(name)-25s%(levelname)-8s%(message)s", Layout.defaultColours, false, true⟩

def terminalColours : List (String × String) :=
  [("TRACE", "cyan"), ("DEBUG", "cyan"), ("INFO", "green"), ("WARNING", "yellow"), ("ERROR", "red"),
   ("CRITICAL", "red")]

def terminalLayout : Layout :=
  ⟨.ofText "%(log_color)s%(name)-25s%(levelname)-8s%(reset)s%(blue)s%(message)s", terminalColours,
    true, false⟩

inductive ConsoleError where
  | otherStream
  deriving DecidableEq, Repr

def ConsoleError.message : ConsoleError → String
  | .otherStream => "Instance already exists with a different stream"

namespace Logging

/-- Before any console is opened: records below a warning are dropped. -/
def initial : Logging :=
  ⟨Level.warning.number, [], 0, none⟩

def without (handlers : List Handler) (id : Nat) : List Handler :=
  handlers.filter (·.id ≠ id)

/-- Apply a level: the handler of the console, if there is one, gives way to a new one. -/
def install (l : Logging) (terminal : Bool) (stream : String) (level : Int) : Logging :=
  let h : Handler := ⟨l.nextId, stream, level, if terminal then terminalLayout else plainLayout⟩
  let rest := match l.console? with
    | some c => without l.handlers c.handler.id
    | none => l.handlers
  ⟨level, rest ++ [h], l.nextId + 1, some ⟨stream, h⟩⟩

/-- Open the console on a stream, unless it is open. A new one shows informative messages. -/
def openConsole (l : Logging) (terminal : Bool) (stream : String) : Except ConsoleError Logging :=
  match l.console? with
  | some c => if c.stream = stream then .ok l else .error .otherStream
  | none => .ok (l.install terminal stream Level.info.number)

def setLevel (l : Logging) (terminal : Bool) (level : Int) : Logging :=
  match l.console? with
  | some c => l.install terminal c.stream level
  | none => l

def closeConsole (l : Logging) : Logging :=
  match l.console? with
  | some c => { l with handlers := without l.handlers c.handler.id, console? := none }
  | none => l

def sourceName (name : String) : String :=
  if name = "" then "root" else name

/-- Whether a record of a level is not dropped; one that is not above zero always is. -/
def passes (l : Logging) (level : Int) : Bool :=
  0 < level && l.level ≤ level

def emit (p : ColourPolicy) (l : Logging) (r : LogRecord) (memory : Nat := Text.defaultMemory) :
    List (String × String) :=
  if l.passes r.level then
    l.handlers.filterMap fun h =>
      if h.level ≤ r.level then
        (h.layout.format p r memory).toOption.map fun text => (h.stream, text ++ "\n")
      else none
  else []

end Logging

end SubLang
