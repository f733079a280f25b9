import Solvency.Text.HiddenTable
import Solvency.Text.Numeral

/-! # Quoted text

Messages quote the text they complain about, so that blanks, quotes and characters without a glyph
can be told apart.
-/
namespace Solvency.Text

def quoteChar (c : Char) : List Char :=
  match c with
  | '"' => ['\\', '"']
  | '\\' => ['\\', '\\']
  | '\t' => ['\\', 't']
  | '\r' => ['\\', 'r']
  | '\n' => ['\\', 'n']
  | '\x00' => ['\\', '0']
  | _ => if hidden.has c then ['\\', 'u', '\x7b'] ++ hexDigits c.toNat ++ ['\x7d'] else [c]

def quote (text : String) : String :=
  String.ofList ('"' :: text.toList.flatMap quoteChar ++ ['"'])

end Solvency.Text
