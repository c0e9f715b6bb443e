import SubLang.Text.Quoted
import SubLang.Text.Utf8

/-!
Texts as the system hands them over: the names of files, and the arguments of a call.

They are bytes, and are taken for UTF-8. A byte that is no part of a character stands for itself among the
characters. Where only characters can be shown it is shown by a code point of its own.
-/

namespace SubLang.Text

inductive OsChar where
  | char (c : Char)
  | byte (b : UInt8)
  deriving DecidableEq, Repr

namespace OsChar

def isChar : OsChar → Bool
  | .char _ => true
  | .byte _ => false

/-- A byte by the code point that stands for it: one of the low surrogates. -/
def escapedByte (b : UInt8) : List Char :=
  ['\\', 'u', 'd', 'c'] ++ hexDigits 2 b.toNat

def shown : OsChar → List Char
  | .char c => [c]
  | .byte b => escapedByte b

def quoted (quote : Char) : OsChar → List Char
  | .char c => quotedChar quote c
  | .byte b => escapedByte b

def bytes : OsChar → List UInt8
  | .char c => String.utf8EncodeChar c
  | .byte b => [b]

end OsChar

structure OsText where
  chars : List OsChar
  deriving DecidableEq, Repr

namespace OsText

def ofText (s : String) : OsText :=
  ⟨s.toList.map .char⟩

instance : Coe String OsText := ⟨ofText⟩

instance : Coe (Option String) (Option OsText) := ⟨Option.map ofText⟩

instance : Coe (List String) (List OsText) := ⟨List.map ofText⟩

def empty : OsText := ⟨[]⟩

def append (s t : OsText) : OsText :=
  ⟨s.chars ++ t.chars⟩

instance : Append OsText := ⟨append⟩

def isText (t : OsText) : Bool :=
  t.chars.all OsChar.isChar

def shown (t : OsText) : String :=
  String.ofList (t.chars.flatMap OsChar.shown)

def bytes (t : OsText) : List UInt8 :=
  t.chars.flatMap OsChar.bytes

def characters (t : OsText) : List Char :=
  t.chars.filterMap fun
    | .char c => some c
    | .byte _ => none

def quoted (t : OsText) : String :=
  let q := quoteFor t.characters
  String.ofList (q :: t.chars.flatMap (OsChar.quoted q) ++ [q])

def quotedList (ts : List OsText) : String :=
  "[" ++ ", ".intercalate (ts.map quoted) ++ "]"

/-- The text with a replacement character for each fault in its bytes; `fuel` bounds the faults. -/
def replaceFrom : (fuel : Nat) → List UInt8 → List Char
  | 0, _ => []
  | fuel + 1, bs =>
    match decodeUtf8 bs with
    | .ok s => s.toList
    | .error fault =>
      ((decodeUtf8 (bs.take fault.start)).toOption.getD "").toList
        ++ '\ufffd' :: replaceFrom fuel (bs.drop (fault.start + fault.length))

def replaced (t : OsText) : String :=
  String.ofList (replaceFrom (t.bytes.length + 1) t.bytes)

end OsText

end SubLang.Text
