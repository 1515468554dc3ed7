/-!
# Listings

One-line descriptions of records and lists: `Name { field: value, … }` and `[item, …]`.
-/

namespace StreamFraming.Text.Listing

def record (name : String) (fields : List (String × String)) : String :=
  name ++ " \x7b " ++ ", ".intercalate (fields.map fun f => f.1 ++ ": " ++ f.2) ++ " \x7d"

def list (items : List String) : String := "[" ++ ", ".intercalate items ++ "]"

end StreamFraming.Text.Listing
