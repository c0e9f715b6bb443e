import SubLang.Command.Run

/-!
The command as a program. It looks up everything that the call may be about, in the environment and on
the disk, before the call is run; the run itself is a function of what was found.
-/

namespace SubLang.Main

open Text

def variableNames : List String :=
  ["HOME", "COLUMNS", Environment.forceTerminal, Environment.forceColour, Environment.noColour]
    ++ Setting.builtin.map fun s => Environment.variableName s.sect s.name

def readEnvironment : IO Environment :=
  variableNames.filterMapM fun name => do
    return (← IO.getEnv name).map (name, ·)

def fields (line : String) : List String :=
  (splitAt ':' line.toList).map String.ofList

def accountNumber? (status : List String) : Option String :=
  status.findSome? fun line =>
    match fields line with
    | ["Uid", numbers] =>
      ((splitAt '\t' numbers.toList).filter (!·.isEmpty)).head?.map String.ofList
    | _ => none

def homeOf? (number : String) (accounts : List String) : Option String :=
  accounts.findSome? fun line =>
    match fields line with
    | [_, _, n, _, _, home, _] => if n = number then some home else none
    | _ => none

def readAccount : IO (Option String) := do
  try
    let status ← IO.FS.lines "/proc/self/status"
    let accounts ← IO.FS.lines "/etc/passwd"
    return (accountNumber? status.toList).bind (homeOf? · accounts.toList)
  catch _ => return none

def directoryCode : UInt32 := 21

def readEntry (path : OsText) : IO FileEntry := do
  if let some entry := FileEntry.ofSpelling? path then return entry
  try
    return .file (← IO.FS.readBinFile path.shown).toList
  catch
    | .noFileOrDirectory .. => return .missing
    | .inappropriateType _ code _ => return if code = directoryCode then .directory else .blocked
    | .invalidArgument .. => return .tooLong
    | _ => return .blocked

/-- The paths that a call may be about: the settings files, and all that an argument could name, whole or
as the value of an option. -/
def paths (env : Environment) (account? : Option String) (args : List OsText) : List OsText :=
  Session.configNames env account? ++ args.flatMap fun arg =>
    (List.range arg.chars.length).map fun n => ⟨arg.chars.drop n⟩

def readFiles (paths : List OsText) : IO Files := do
  let entries ← paths.mapM fun path => return (path, ← readEntry path)
  return fun path => (entries.lookup path).getD .missing

end SubLang.Main

open SubLang in
def main (args : List String) : IO UInt32 := do
  let args := args.map Text.OsText.ofText
  let env ← Main.readEnvironment
  let account? ← Main.readAccount
  let files ← Main.readFiles (Main.paths env account? args)
  let stdout ← IO.getStdout
  let stderr ← IO.getStderr
  let session := { Session.initial env files with account? := account? }
  let r := Shell.run session (← stdout.isTty) args (← stderr.isTty)
  stderr.putStr r.stderr
  stdout.write ⟨r.written.bytes.toArray⟩
  match r.error?, r.unwritten? with
  | some e, _ => stderr.putStrLn e.message
  | none, some e => stderr.putStrLn e.message
  | none, none => pure ()
  return r.code.toUInt32
