/-!
Letters beyond ASCII have no case here: `É` and `é` stay two characters.
-/

namespace RequestFilter.Text

def lower (cs : List Char) : List Char := cs.map Char.toLower

def equalIgnoringCase (s t : List Char) : Bool := lower s == lower t

def lowered (s : String) : String := String.ofList (lower s.toList)

end RequestFilter.Text
