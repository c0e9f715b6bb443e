import SubLang.Settings.Store
import SubLang.Text.Blank
import SubLang.Text.Line
import SubLang.Text.OsText
import SubLang.Text.Utf8

/-!
The text of a settings file.

A line is a comment, a header that opens a section, or an entry, which is a key and a text with `=` or
`:` between them. A line that is indented deeper than the entry before it continues the text of that
entry; an empty line does so too, but one at the end of a text does not show. A section may be opened
once in a file and an entry may stand once in it, but a later file may add to the sections of an earlier
one and replace its entries.
-/

namespace SubLang

open Text

inductive ConfigFault where
  | repeatedSection (file : OsText) (line : Nat) (sect : String)
  | repeatedKey (file : OsText) (line : Nat) (sect key : String)
  | noSection (file : OsText) (line : Nat) (text : String)
  | unreadable (file : OsText) (lines : List (Nat × String))
  | undecodable (fault : Utf8Fault)
  deriving DecidableEq, Repr

def lineNumberText (n : Nat) : String :=
  "[line " ++ (if n < 10 then " " else "") ++ toString n ++ "]"

def ConfigFault.message : ConfigFault → String
  | .repeatedSection file line sect =>
    "While reading from " ++ file.quoted ++ " " ++ lineNumberText line ++ ": section "
      ++ quoted sect ++ " already exists"
  | .repeatedKey file line sect key =>
    "While reading from " ++ file.quoted ++ " " ++ lineNumberText line ++ ": option " ++ quoted key
      ++ " in section " ++ quoted sect ++ " already exists"
  | .noSection file line text =>
    "File contains no section headers.\nfile: " ++ file.quoted ++ ", line: " ++ toString line ++ "\n"
      ++ quoted text
  | .unreadable file lines =>
    "Source contains parsing errors: " ++ file.quoted
      ++ String.join (lines.map fun (n, text) => "\n\t" ++ lineNumberText n ++ ": " ++ quoted text)
  | .undecodable fault => fault.message

namespace ConfigFile

def isComment : List Char → Bool
  | '#' :: _ | ';' :: _ => true
  | _ => false

/-- The name in a header: what stands between the first character, which must be an opening bracket, and
the last closing one. -/
def header? : List Char → Option String
  | '[' :: cs =>
    match cs.reverse.dropWhile (· ≠ ']') with
    | _ :: c :: name => some (String.ofList (c :: name).reverse)
    | _ => none
  | _ => none

def isDelimiter (c : Char) : Bool :=
  c = '=' || c = ':'

def entry? (line : List Char) : Option (String × String) :=
  match line.dropWhile (!isDelimiter ·) with
  | [] => none
  | _ :: text =>
    some (String.ofList (trimEndBy isBlank (line.takeWhile (!isDelimiter ·))),
      String.ofList (trim text))

/-- How far a file has been read: what the store holds by now, the section and the entry that is open,
the indentation of that entry, what the file itself has opened and written, and the lines that could not
be read. -/
structure Progress where
  store : Store
  sect : Option String
  key : Option String
  indent : Nat
  opened : List String
  written : List (String × String)
  unreadable : List (Nat × String)

namespace Progress

def start (s : Store) : Progress :=
  ⟨s, none, none, 0, [], [], []⟩

def extend (p : Progress) (sect key : String) (line : String) : Progress :=
  let text := (p.store.textAt? sect key).getD ""
  { p with store := p.store.write sect key (text ++ "\n" ++ line) }

def openSection (p : Progress) (file : OsText) (number : Nat) (sect : String) :
    Except ConfigFault Progress :=
  if sect = defaultSection then .ok { p with sect := some sect, key := none }
  else if p.opened.contains sect then .error (.repeatedSection file number sect)
  else
    .ok { p with
      store := p.store.addSection sect, sect := some sect, key := none, opened := sect :: p.opened }

/-- Write an entry. One without a key is written like any other, and makes the line unreadable. -/
def write (p : Progress) (file : OsText) (number : Nat) (line : String) (sect key text : String) :
    Except ConfigFault Progress :=
  let unreadable := if key = "" then p.unreadable ++ [(number, line)] else p.unreadable
  let key := storeKey key
  if p.written.contains (sect, key) then .error (.repeatedKey file number sect key)
  else
    .ok { p with
      store := p.store.write sect key text
      key := if key = "" then none else some key
      written := (sect, key) :: p.written
      unreadable := unreadable }

/-- Read a line that opens a section or writes an entry; `content` is the line without the blanks around
it. -/
def define (p : Progress) (file : OsText) (number : Nat) (line content : List Char) :
    Except ConfigFault Progress :=
  match header? content, p.sect with
  | some sect, _ => p.openSection file number sect
  | none, none => .error (.noSection file number (String.ofList line))
  | none, some sect =>
    match entry? content with
    | some (key, text) => p.write file number (String.ofList line) sect key text
    | none => .ok { p with unreadable := p.unreadable ++ [(number, String.ofList line)] }

def line (file : OsText) (p : Progress) (number : Nat) (line : List Char) :
    Except ConfigFault Progress :=
  let content := trim line
  let indent := (line.takeWhile isBlank).length
  if isComment content then .ok p
  else
    match content, p.sect, p.key with
    | [], some sect, some key => .ok (p.extend sect key "")
    | [], _, _ => .ok p
    | _ :: _, some sect, some key =>
      if indent > p.indent then .ok (p.extend sect key (String.ofList content))
      else { p with indent := indent }.define file number line content
    | _ :: _, _, _ => { p with indent := indent }.define file number line content

def lines (file : OsText) : Progress → Nat → List (List Char) → Except ConfigFault Progress
  | p, _, [] => .ok p
  | p, n, l :: ls => do lines file (← p.line file n l) (n + 1) ls

def finish (p : Progress) (file : OsText) : Except ConfigFault Store :=
  if p.unreadable.isEmpty then
    .ok (p.store.mapTexts fun s => String.ofList (trimEndBy isBlank s.toList))
  else .error (.unreadable file p.unreadable)

end Progress

/-- The lines of a text that are sure to be complete when something follows that cannot be read. -/
def completeLines (text : List Char) : List (List Char) :=
  let text := if text.getLast? = some '\r' then text.dropLast else text
  (fileLines (unifyNewlines text)).filter (·.getLast? = some '\n')

def pieceSize : Nat := 0x2000

/-- Where the piece begins in which a fault shows: a piece begins with the bytes that the one before it
left undecoded, since their character was not complete. That a character is cut off shows at the end of
the file, when nothing but its own bytes is left. -/
def pieceStart (bytes : List UInt8) (fault : Utf8Fault) : Nat :=
  let pieceOf (offset : Nat) : Nat :=
    let start := offset / pieceSize * pieceSize
    match decodeUtf8 (bytes.take start) with
    | .ok _ => start
    | .error cut => cut.start
  match fault.reason with
  | .unexpectedEnd => fault.start
  | .invalidStart => pieceOf fault.start
  | .invalidContinuation => pieceOf (fault.start + fault.length)

end ConfigFile

open ConfigFile in
/-- Read a settings file on top of what a store holds. A fault in the encoding of a piece is noticed when
the lines in front of the piece have been read, and its place is told from the start of the piece on. -/
def Store.readFile (s : Store) (file : OsText) (bytes : List UInt8) : Except ConfigFault Store :=
  let start := Progress.start s
  match decodeUtf8 bytes with
  | .ok text => do (← start.lines file 1 (fileLines (unifyNewlines text.toList))).finish file
  | .error fault => do
    let piece := pieceStart bytes fault
    let text := (decodeUtf8 (bytes.take piece)).toOption.getD ""
    let _ ← start.lines file 1 (completeLines text.toList)
    .error (.undecodable { fault with start := fault.start - piece })

end SubLang
