namespace RakeOutline

/-- A constant at the start of a statement, such as a task library, and the line where it stands. -/
structure Include where
  name : String
  line : Nat
  deriving DecidableEq, Repr, Inhabited

structure Require where
  name : String
  relative : Bool
  line : Nat
  deriving DecidableEq, Repr, Inhabited

end RakeOutline
