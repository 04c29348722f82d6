import EventBus.Text.Quoted

/-!
# Records, tuples and lists as text
-/

namespace EventBus.Text

def commas (parts : List String) : String := ", ".intercalate parts

def list (parts : List String) : String := "[" ++ commas parts ++ "]"

def tuple (name : String) (parts : List String) : String := name ++ "(" ++ commas parts ++ ")"

def field (f : String × String) : String := f.1 ++ ": " ++ f.2

def record (name : String) (fields : List (String × String)) : String :=
  name ++ " \x7b " ++ commas (fields.map field) ++ " \x7d"

def openRecord (name : String) (fields : List (String × String)) : String :=
  name ++ " \x7b " ++ commas (fields.map field ++ [".."]) ++ " \x7d"

def flag (b : Bool) : String := if b then "true" else "false"

end EventBus.Text
