import SubLang.Text.LetterCase

/-!
Stores of settings: texts under a section and a key.

One section is not like the others: what is written there counts in every section that exists and does
not have the key itself. Sections and keys keep the order in which they were first written.
-/

namespace SubLang

open Text

/-- Texts by key, in the order in which the keys were first written. -/
abbrev Entries := List (String × String)

namespace Entries

def get? (es : Entries) (key : String) : Option String :=
  List.lookup key es

/-- Write a text under a key, where it stands already or else at the end. -/
def put : Entries → (key text : String) → Entries
  | [], key, text => [(key, text)]
  | e :: es, key, text => if e.1 = key then (key, text) :: es else e :: put es key text

def overlay (under top : Entries) : Entries :=
  top.foldl (fun es e => put es e.1 e.2) under

end Entries

def hyphenated (name : String) : String :=
  String.ofList (name.toList.map fun c => if c = '_' then '-' else c)

def storeKey (name : String) : String :=
  lower (hyphenated name)

/-- The name of the section that counts in all others. -/
def defaultSection : String := "DEFAULT"

structure Store where
  defaults : Entries
  sections : List (String × Entries)
  deriving DecidableEq, Repr

namespace Store

def empty : Store := ⟨[], []⟩

/-- Whether a section exists; the default section always does. -/
def hasSection (s : Store) (sect : String) : Bool :=
  sect = defaultSection || (s.sections.lookup sect).isSome

def addSection (s : Store) (sect : String) : Store :=
  if s.hasSection sect then s else { s with sections := s.sections ++ [(sect, [])] }

def textAt? (s : Store) (sect key : String) : Option String :=
  if sect = defaultSection then Entries.get? s.defaults key
  else (s.sections.lookup sect).bind fun es => Entries.get? es key <|> Entries.get? s.defaults key

def get? (s : Store) (sect name : String) : Option String :=
  s.textAt? sect (storeKey name)

/-- Write a text under a key, in a section that exists. A section without a name is another name of the
default section. -/
def write (s : Store) (sect key text : String) : Store :=
  if sect = "" || sect = defaultSection then { s with defaults := Entries.put s.defaults key text }
  else
    { s with sections := s.sections.map fun e =>
        if e.1 = sect then (e.1, Entries.put e.2 key text) else e }

def put (s : Store) (sect name text : String) : Store :=
  s.write sect (storeKey name) text

def set (s : Store) (sect name text : String) : Store :=
  (s.addSection sect).put sect name text

def mapTexts (f : String → String) (s : Store) : Store where
  defaults := s.defaults.map fun e => (e.1, f e.2)
  sections := s.sections.map fun (sect, es) => (sect, es.map fun e => (e.1, f e.2))

def contents (s : Store) : List (String × Entries) :=
  (defaultSection, s.defaults)
    :: s.sections.map fun (sect, es) => (sect, Entries.overlay s.defaults es)

end Store

end SubLang
