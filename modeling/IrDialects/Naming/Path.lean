import IrDialects.Naming.Name

/-!
# Paths

A path is a sequence of names, written with slashes between them. Packages and modules are named by
paths.
-/

namespace IrDialects

/-- A sequence of names. -/
structure Path where
  names : List Name := []
deriving DecidableEq, Repr, Inhabited

namespace Path

/-- The path spelt by a sequence of characters; segments without a word are left out. -/
def ofChars (cs : List Char) : Path :=
  ⟨((Text.pieces '/' cs).map Name.ofChars).filter fun n => !n.isEmpty⟩

/-- The path spelt by a text. -/
def parse (s : String) : Path := ofChars s.toList

/-- Whether a path has no names. -/
def isEmpty (p : Path) : Bool := p.names.isEmpty

def length (p : Path) : Nat := p.names.length

/-- Whether `other` begins with the names of `p`. -/
def leads (p other : Path) : Bool := p.names.isPrefixOf other.names

/-- The canonical form: names joined by slashes. -/
def text (p : Path) : String := "/".intercalate (p.names.map Name.kebab)

end Path

end IrDialects
