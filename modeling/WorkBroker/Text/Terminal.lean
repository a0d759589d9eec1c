import WorkBroker.Text.Quoted
/-!
Texts for a terminal.  Characters that a terminal would take for commands are written as escapes, all
others stand for themselves; a line ends at the first line break.
-/

set_option autoImplicit false
set_option relaxedAutoImplicit false

namespace WorkBroker.Text

/-- The ASCII characters that a terminal obeys: bell, backspace, form feed, escape, delete. -/
def terminalCommands : List Char := ['\x07', '\x08', '\x0c', '\x1b', '\x7f']

def terminalChar (c : Char) : String :=
  if terminalCommands.contains c then "\\x" ++ (if c.toNat < 16 then "0" else "") ++ hex c.toNat
  else if 0x80 ≤ c.toNat && c.toNat ≤ 0x9f then "\\u\x7b" ++ hex c.toNat ++ "\x7d"
  else c.toString

def forTerminal (s : String) : String := String.join (s.toList.map terminalChar)

/-- What stands before the first line break of a text; a carriage return belongs to the break. -/
def firstLine (s : String) : String :=
  let line := s.toList.takeWhile (· ≠ '\n')
  String.ofList (if line.getLast? = some '\r' then line.dropLast else line)

end WorkBroker.Text
