import AttributeLint.Vocabulary.Basic

/-!
# Building a vocabulary from declarations

Declarations name attributes in groups, restrict some of them to tags, add aliases and renames, and
list the accessibility names. `build` accepts them when every lookup key leads to one attribute:
no two declared names share a key, restrictions and aliases speak of declared names, an alias has
the key of its name, and a rename neither hides an entry nor leads nowhere. The checks run in that
order and the first one that fails is the answer.
-/

namespace AttributeLint

/-- What a vocabulary is built from. -/
structure Declarations where
  /-- Category and canonical names of each group. -/
  groups : List (String × List String)
  /-- Canonical name and the tags it is valid on. -/
  restrictions : List (String × List String)
  /-- Canonical name and its other spellings. -/
  aliases : List (String × List String)
  /-- Raw spelling and the canonical name meant. -/
  renames : List (String × String)
  /-- The accessibility names. -/
  aria : List String

namespace Declarations

/-- A declared name and the category of its first declaration. -/
structure Declared where
  name : String
  category : String
  deriving DecidableEq, Repr

/-- The declared names by lookup key, in order of first declaration. -/
abbrev Register := List (String × Declared)

/-- Runs a check on every member, in order; the first failure counts. -/
def checkAll {α : Type} (check : α → Except Fault Unit) : List α → Except Fault Unit
  | [] => .ok ()
  | x :: rest =>
      match check x with
      | .ok _ => checkAll check rest
      | .error e => .error e

/-- Every declared name with its category, in order. -/
def named (d : Declarations) : List Declared :=
  d.groups.flatMap fun g => g.2.map fun name => ⟨name, g.1⟩

/-- Declares one name: a new key is added, a repeated name changes nothing. -/
def declare (register : Register) (n : Declared) : Except Fault Register :=
  match Name.key? n.name with
  | .error e => .error e
  | .ok key =>
      match register.lookup key with
      | none => .ok (register ++ [(key, n)])
      | some seen =>
          if seen.name = n.name then .ok register else .error (.sharedKey key seen.name n.name)

/-- Declares names in order. -/
def declareAll (register : Register) : List Declared → Except Fault Register
  | [] => .ok register
  | n :: rest =>
      match declare register n with
      | .error e => .error e
      | .ok more => declareAll more rest

/-- Is the canonical name declared? -/
def isDeclared (register : Register) (name : String) : Bool :=
  register.any fun r => r.2.name == name

/-- A restricted or aliased name must be declared. -/
def checkDeclared (register : Register) (name : String) : Except Fault Unit :=
  if isDeclared register name then .ok () else .error (.undeclared name)

/-- An alias must have the lookup key of its name. -/
def checkAlias (name spelling : String) : Except Fault Unit :=
  match Name.key? spelling with
  | .error e => .error e
  | .ok key => if key = Name.key name then .ok () else .error (.strayAlias spelling name)

/-- A rename must not hide an entry, and must lead to a declared name. The result is its key. -/
def checkRename (register : Register) (raw target : String) : Except Fault String :=
  match Name.key? raw with
  | .error e => .error e
  | .ok key =>
      match register.lookup key with
      | some hidden => .error (.shadowingRename raw key hidden.name)
      | none => if isDeclared register target then .ok key else .error (.undeclaredTarget target)

/-- The renames by lookup key; of several with one key the last wins. -/
def renameAll (register : Register) (done : List (String × String)) :
    List (String × String) → Except Fault (List (String × String))
  | [] => .ok done
  | (raw, target) :: rest =>
      match checkRename register raw target with
      | .error e => .error e
      | .ok key => renameAll register (Assoc.put key target done) rest

/-- The entry of a declared name. An empty restriction restricts nothing. -/
def entry (d : Declarations) (n : Declared) : Entry :=
  let tags := (d.restrictions.lookup n.name).getD []
  { name := n.name
    tags := if tags.isEmpty then none else some tags
    tagOrder := tags
    aliases := (d.aliases.lookup n.name).getD []
    category := n.category }

/-- The vocabulary of the declarations, or the first conflict among them. -/
def build (d : Declarations) : Except Fault Vocabulary := do
  let register ← declareAll [] d.named
  checkAll (checkDeclared register) (d.restrictions.map Prod.fst ++ d.aliases.map Prod.fst)
  checkAll (fun a => checkAll (checkAlias a.1) a.2) d.aliases
  let renames ← renameAll register [] d.renames
  return ⟨register.map fun r => (r.1, d.entry r.2), renames, d.aria⟩

end Declarations

end AttributeLint
