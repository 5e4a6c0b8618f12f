import Backplane.Text.Quoted
/-!
# `Backplane.Text.Terminal`: what a terminal would act upon

A terminal takes some characters for commands: controls, and the sequences that an escape opens.  A
text can be shown with the controls that matter spelled out (`Terminal.spell`), or without any
commands (`Terminal.strip`).

What `setup_logging` has printed is spelled out; complaints about `CliArgs` are without commands.
-/
namespace Backplane.Terminal

/-! ## Spelling controls out -/

/-- Whether a control could steer a terminal: the bell, a backspace, a form feed, an escape, a
delete, or one of the controls after ASCII. -/
def steers (c : Char) : Bool :=
  ['\x07', '\x08', '\x0c', '\x1b', '\x7f'].contains c || (0x80 ≤ c.toNat && c.toNat ≤ 0x9F)

def code (c : Char) : List Char :=
  if c.toNat < 0x80 then '\\' :: 'x' :: Hex.fixed 2 c.toNat else codePoint c

/-- A text with the controls that could steer a terminal spelled out. -/
def spell (s : String) : String :=
  String.ofList (s.toList.flatMap fun c => if steers c then code c else [c])

/-! ## Leaving commands out -/

/-- What a terminal is in the middle of. -/
inductive Reading
  /-- Plain text. -/
  | text
  /-- An escape, and what may follow it before its last character. -/
  | escape
  | escapeMore
  /-- A control sequence: its beginning, its parameters, what may follow them, and one that is
  malformed. -/
  | sequence
  | parameters
  | sequenceMore
  | malformed
  /-- The head of a device control, in the same parts. -/
  | device
  | deviceParameters
  | deviceMore
  /-- A command to the system around the terminal. -/
  | system
  /-- A string that only its terminator, or an escape, ends. -/
  | string
deriving DecidableEq, Repr

namespace Reading

/-- What follows an escape. -/
def afterEscape (n : Nat) : Option Reading :=
  if n = 0x50 then some device
  else if n = 0x5B then some sequence
  else if n = 0x5D then some system
  else if n = 0x58 ∨ n = 0x5E ∨ n = 0x5F then some string
  else if 0x20 ≤ n ∧ n ≤ 0x2F then some escapeMore
  else if 0x30 ≤ n ∧ n ≤ 0x7E then some text
  else none

/-- What comes next in a control sequence or the head of a device control, by the kind of character:
`more` after one that follows parameters, `parameter` after a plain parameter, `mark` after one of
`<=>?`, and `last` after one that ends it. -/
def byKind (more parameter mark last : Reading) (n : Nat) : Option Reading :=
  if 0x20 ≤ n ∧ n ≤ 0x2F then some more
  else if 0x30 ≤ n ∧ n ≤ 0x3B then some parameter
  else if 0x3C ≤ n ∧ n ≤ 0x3F then some mark
  else if 0x40 ≤ n ∧ n ≤ 0x7E then some last
  else none

/-- What an ASCII character changes the reading to, if it does. -/
def next? (s : Reading) (c : Char) : Option Reading :=
  let n := c.toNat
  if n = 0x1B then some escape
  else if n = 0x18 ∨ n = 0x1A then some text
  else
    match s with
    | text => none
    | escape => afterEscape n
    | escapeMore => if 0x30 ≤ n ∧ n ≤ 0x7E then some text else none
    | sequence => byKind sequenceMore parameters parameters text n
    | parameters => byKind sequenceMore parameters malformed text n
    | sequenceMore => byKind sequenceMore malformed malformed text n
    | malformed => byKind malformed malformed malformed text n
    | device => byKind deviceMore deviceParameters deviceParameters string n
    | deviceParameters => byKind deviceMore deviceParameters string string n
    | deviceMore => byKind deviceMore string string string n
    | system => if n = 0x07 then some text else none
    | string => none

/-- What the reading is after an ASCII character. -/
def next (s : Reading) (c : Char) : Reading := (s.next? c).getD s

/-- Whether controls are still obeyed. -/
def obeys : Reading → Bool
  | device | deviceParameters | deviceMore | system | string => false
  | _ => true

/-- Whether an ASCII character can be seen: a printable one in plain text, or white space that is
obeyed. -/
def shows (s : Reading) (c : Char) : Bool :=
  (s = text && 0x20 ≤ c.toNat && c.toNat < 0x7F) || (s.obeys && ['\t', '\n', '\x0c', '\r'].contains c)

/-- What the reading is after a character beyond ASCII that is not seen: a byte 9C in it ends a
string. -/
def passing (s : Reading) (c : Char) : Reading :=
  if s = string && (String.singleton c).toUTF8.toList.contains 0x9C then text else s

end Reading

/-- What can be seen of a text.  While `seen`, characters are taken for plain text, whatever was
being read before. -/
def visible : Bool → Reading → List Char → List Char
  | _, _, [] => []
  | seen, s, c :: rest =>
    if 0x7F < c.toNat then
      if seen || s = .text then c :: visible true .text rest else visible false (s.passing c) rest
    else if seen then
      let after := (Reading.text.next? c).getD s
      if Reading.text.shows c then c :: visible true after rest else visible false (after.next c) rest
    else if s.shows c then c :: visible true (s.next c) rest
    else visible false (s.next c) rest

/-- A text without commands to a terminal. -/
def strip (s : String) : String := String.ofList (visible false .text s.toList)

end Backplane.Terminal
