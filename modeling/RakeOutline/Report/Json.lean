import RakeOutline.Report.Data
import RakeOutline.Text.Listing

namespace RakeOutline

def jsonChar (c : Char) : List Char :=
  match c with
  | '"' => ['\\', '"']
  | '\\' => ['\\', '\\']
  | '\x08' => ['\\', 'b']
  | '\t' => ['\\', 't']
  | '\n' => ['\\', 'n']
  | '\x0c' => ['\\', 'f']
  | '\r' => ['\\', 'r']
  | c =>
    if c.toNat < 0x20 then
      let digits := hexDigits c.toNat
      ['\\', 'u'] ++ List.replicate (4 - digits.length) '0' ++ digits
    else [c]

def jsonText (text : String) : String :=
  String.ofList ('"' :: text.toList.flatMap jsonChar ++ ['"'])

def margin (level : Nat) : String :=
  String.ofList (List.replicate (2 * level) ' ')

def bracketed (opening closing : String) (level : Nat) (lines : List String) : String :=
  if lines.isEmpty then opening ++ closing
  else
    let start := "\n" ++ margin (level + 1)
    opening ++ start ++ ("," ++ start).intercalate lines ++ "\n" ++ margin level ++ closing

mutual

def Data.jsonAt (level : Nat) : Data → String
  | .text value => jsonText value
  | .number value => toString value
  | .flag value => if value then "true" else "false"
  | .list items => bracketed "[" "]" level (jsonItems (level + 1) items)
  | .record fields => bracketed "\x7b" "\x7d" level (jsonFields (level + 1) fields)

def jsonItems (level : Nat) : List Data → List String
  | [] => []
  | item :: rest => item.jsonAt level :: jsonItems level rest

def jsonFields (level : Nat) : List (String × Data) → List String
  | [] => []
  | (name, value) :: rest => (jsonText name ++ ": " ++ value.jsonAt level) :: jsonFields level rest

end

def Data.json (data : Data) : String :=
  data.jsonAt 0

end RakeOutline
