/-!
Levels of log messages. A level is a number; six of them have names of their own.
-/

namespace SubLang

inductive Level where
  | critical
  | error
  | warning
  | info
  | debug
  | trace
  deriving DecidableEq, Repr

namespace Level

def all : List Level :=
  [.critical, .error, .warning, .info, .debug, .trace]

def name : Level → String
  | .critical => "CRITICAL"
  | .error => "ERROR"
  | .warning => "WARNING"
  | .info => "INFO"
  | .debug => "DEBUG"
  | .trace => "TRACE"

def number : Level → Int
  | .critical => 50
  | .error => 40
  | .warning => 30
  | .info => 20
  | .debug => 10
  | .trace => 3

def ofName? (name : String) : Option Level :=
  all.find? (·.name = name)

def ofVerbosity (n : Int) : Level :=
  if n ≤ 0 then .warning
  else if n = 1 then .info
  else if n = 2 then .debug
  else .trace

end Level

def levelText (n : Int) : String :=
  if n = 0 then "NOTSET"
  else ((Level.all.find? (·.number = n)).map (·.name)).getD ("Level " ++ toString n)

end SubLang
