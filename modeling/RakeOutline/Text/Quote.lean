namespace RakeOutline

def escape (quote : Char) : List Char → List Char
  | [] => []
  | c :: rest =>
    if c = quote ∨ c = '\\' then '\\' :: c :: escape quote rest else c :: escape quote rest

def quoted (quote : Char) (text : List Char) : List Char :=
  quote :: (escape quote text ++ [quote])

def unescape (quote : Char) : List Char → List Char
  | [] => []
  | [c] => [c]
  | c :: d :: rest =>
    if c = '\\' then
      if d = quote ∨ d = '\\' then d :: unescape quote rest else c :: d :: unescape quote rest
    else c :: unescape quote (d :: rest)

/-- A text between two equal quote characters is read without them; any other text is kept. -/
def unquote : List Char → List Char
  | [] => []
  | quote :: rest =>
    if (quote = '"' ∨ quote = '\'') ∧ rest.getLast? = some quote then
      unescape quote rest.dropLast
    else quote :: rest

end RakeOutline
