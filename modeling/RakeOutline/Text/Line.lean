namespace RakeOutline

def lines : List Char → List (List Char)
  | [] => []
  | c :: rest =>
    if c = '\n' then [c] :: lines rest
    else match lines rest with
      | [] => [[c]]
      | line :: later => (c :: line) :: later

def lineContent (line : List Char) : List Char :=
  if line.getLast? = some '\n' then line.dropLast else line

@[simp] theorem flatten_lines (text : List Char) : (lines text).flatten = text := by
  induction text with
  | nil => rfl
  | cons c rest ih =>
    unfold lines
    split
    · simp [ih]
    · split
      next h => simp [h] at ih; simp [ih]
      next line later h => simpa [h] using ih

end RakeOutline
