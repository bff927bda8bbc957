import DiagramShare.Text.Hex
import DiagramShare.Text.Unprintable

/-!
Texts between quotation marks, as messages and settings show them: what has no picture is spelled
by its number, and quotes and backslashes are written with a backslash in front.
-/
namespace DiagramShare.Text

def quotedChar (c : Char) : List Char :=
  if c = '\x00' then ['\\', '0']
  else if c = '\t' then ['\\', 't']
  else if c = '\r' then ['\\', 'r']
  else if c = '\n' then ['\\', 'n']
  else if c = '"' then ['\\', '"']
  else if c = '\\' then ['\\', '\\']
  else if isUnprintable c then ['\\', 'u', '\x7b'] ++ hexDigits c.toNat ++ ['\x7d']
  else [c]

def quoted (s : String) : String :=
  String.ofList ('"' :: s.toList.flatMap quotedChar ++ ['"'])

end DiagramShare.Text
