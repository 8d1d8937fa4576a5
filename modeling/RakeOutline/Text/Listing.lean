import RakeOutline.Text.Printable

namespace RakeOutline

def hexDigits (n : Nat) : List Char :=
  Nat.toDigits 16 n

def listedChar (c : Char) : List Char :=
  match c with
  | '"' => ['\\', '"']
  | '\\' => ['\\', '\\']
  | '\n' => ['\\', 'n']
  | '\r' => ['\\', 'r']
  | '\t' => ['\\', 't']
  | '\x00' => ['\\', '0']
  | c => if isPrinted c then [c] else ['\\', 'u', '\x7b'] ++ hexDigits c.toNat ++ ['\x7d']

def listed (text : String) : String :=
  String.ofList ('"' :: text.toList.flatMap listedChar ++ ['"'])

def listedAll (texts : List String) : String :=
  "[" ++ ", ".intercalate (texts.map listed) ++ "]"

end RakeOutline
