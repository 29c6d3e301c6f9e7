import AttributeLint.Assoc
import AttributeLint.Name
import AttributeLint.Text.Sorted

/-!
# Vocabularies

A vocabulary maps lookup keys to the attributes it knows. An entry holds the one spelling that is
accepted without complaint, the other spellings accepted beside it, and the tags the attribute is
valid on. Renames lead from keys that no accepted spelling has to the attribute meant. The
accessibility names form a closed set of their own.
-/

namespace AttributeLint

/-- An attribute of a vocabulary. -/
structure Entry where
  /-- The canonical spelling. -/
  name : String
  /-- The tags the attribute is valid on; nothing means every tag. -/
  tags : Option (List String) := none
  /-- The tags in the order in which messages list them. -/
  tagOrder : List String := []
  /-- Other spellings accepted on equal footing. -/
  aliases : List String := []
  /-- Where the name comes from. -/
  category : String := "html"
  deriving DecidableEq, Repr

namespace Entry

/-- Is the attribute valid on some tags only? -/
def restricted (e : Entry) : Bool :=
  e.tags.isSome

/-- Is the spelling the canonical one or an alias? -/
def accepts (e : Entry) (spelling : String) : Bool :=
  spelling == e.name || e.aliases.contains spelling

/-- Is the attribute valid on the tag? An unknown tag is on no list. -/
def allows (e : Entry) (tag : Option String) : Bool :=
  match e.tags with
  | none => true
  | some tags => tag.any tags.contains

end Entry

/-- The attributes that are known. -/
structure Vocabulary where
  /-- Entries by lookup key, in declaration order. -/
  entries : List (String × Entry)
  /-- Canonical names by the lookup keys that are renamed to them. -/
  renames : List (String × String)
  /-- The accessibility names. -/
  aria : List String
  deriving DecidableEq, Repr

namespace Vocabulary

/-- The vocabulary that knows nothing. -/
def empty : Vocabulary :=
  ⟨[], [], []⟩

/-- The entry that a lookup key leads to, directly or by a rename. A rename to a name that is not
an entry is a fault of the vocabulary; `build` makes none. -/
def find (v : Vocabulary) (key : String) : Except Fault (Option Entry) :=
  match v.entries.lookup key with
  | some e => .ok (some e)
  | none =>
      match v.renames.lookup key with
      | none => .ok none
      | some target => do
          let targetKey ← Name.key? target
          match v.entries.lookup targetKey with
          | some e => return some e
          | none => throw (.noEntry targetKey)

/-- Does the key have an entry or a rename? -/
def knows (v : Vocabulary) (key : String) : Bool :=
  Assoc.has key v.entries || Assoc.has key v.renames

/-- Exact membership in the accessibility names. -/
def hasAria (v : Vocabulary) (name : String) : Bool :=
  v.aria.contains name

/-- The number of entries. -/
def size (v : Vocabulary) : Nat :=
  v.entries.length

/-- The canonical names, sorted. -/
def names (v : Vocabulary) : List String :=
  Text.sorted (v.entries.map fun e => e.2.name)

/-- The entries that are valid on some tags only. -/
def restrictedEntries (v : Vocabulary) : List Entry :=
  (v.entries.map Prod.snd).filter Entry.restricted

/-- The accessibility names as a sorted set. -/
def ariaNames (v : Vocabulary) : List String :=
  Text.distinct v.aria

/-- A one-line account of the sizes. -/
def summary (v : Vocabulary) : String :=
  "<AttributeTable entries=" ++ toString v.entries.length ++ " renames="
    ++ toString v.renames.length ++ " aria=" ++ toString v.ariaNames.length ++ ">"

end Vocabulary

end AttributeLint
