import AttributeLint.Fault
import AttributeLint.Text.Lowercase

/-!
# Attribute names

Spellings of one attribute differ by letter case and by the separators `-` and `:`. The lookup key
of a name removes both differences. Two families of names are recognised before any lookup: custom
data names, and names that start with `aria-`.
-/

namespace AttributeLint.Name

/-- A character that separates the words of a name. -/
def isSeparator (c : Char) : Bool :=
  c = '-' || c = ':'

/-- The characters of a lookup key: lowercase, then without separators. -/
def keyChars (name : List Char) : List Char :=
  (Text.lowercase name).filter fun c => !isSeparator c

/-- The lookup key of a name. -/
def key (name : String) : String :=
  String.ofList (keyChars name.toList)

/-- The lookup key of a name; an empty name has none. -/
def key? (name : String) : Except Fault String :=
  if name = "" then .error .emptyName else .ok (key name)

/-- The reserved beginning of data names, whatever its letter case. -/
def startsReserved (name : List Char) : Bool :=
  (name.take 8).map Char.toLower = "data-xml".toList

/-- The shape of a data name: `data` alone or before one line break, or `data-` and then no
colon. -/
def hasDataShape (name : List Char) : Bool :=
  name = "data".toList || name = "data\n".toList
    || ("data-".toList.isPrefixOf name && !name.contains ':')

/-- Is the name a custom data attribute? -/
def isData (name : String) : Bool :=
  !startsReserved name.toList && hasDataShape name.toList

/-- Does the name start like an accessibility property? -/
def isAria (name : String) : Bool :=
  "aria-".toList.isPrefixOf name.toList

end AttributeLint.Name
