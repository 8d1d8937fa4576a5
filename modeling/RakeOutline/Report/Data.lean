namespace RakeOutline

inductive Data
  | text (value : String)
  | number (value : Nat)
  | flag (value : Bool)
  | list (items : List Data)
  | record (fields : List (String × Data))
  deriving Repr

def Data.texts (values : List String) : Data :=
  .list (values.map .text)

/-- A field that is left out if its list is empty. -/
def Data.unlessEmpty (name : String) (items : List Data) : List (String × Data) :=
  if items.isEmpty then [] else [(name, .list items)]

end RakeOutline
