import IrDialects.Naming.Path

/-!
# Qualified names

A local name inside a module, with or without the package of the module. A fully qualified name has
two written forms, `package:module:local` and `package:module#local`, and both can be read.
-/

namespace IrDialects

/-- A name inside a module. -/
structure QName where
  modulePath : Path := {}
  localName : Name := {}
deriving DecidableEq, Repr, Inhabited

/-- A name inside a module of a package. -/
structure FQName where
  packagePath : Path := {}
  modulePath : Path := {}
  localName : Name := {}
deriving DecidableEq, Repr, Inhabited

namespace QName

/-- A qualified name from its two written parts, unless the local name has no word. -/
def ofParts? (mod loc : List Char) : Option QName :=
  let n := Name.ofChars loc
  if n.isEmpty then none else some ⟨Path.ofChars mod, n⟩

/-- Reads `module:local`. -/
def ofChars? (cs : List Char) : Option QName :=
  match Text.pieces ':' cs with
  | [mod, loc] => ofParts? mod loc
  | _ => none

/-- Reads `module:local`. -/
def parse? (s : String) : Option QName := ofChars? s.toList

/-- Writes `module:local`. -/
def text (q : QName) : String := q.modulePath.text ++ ":" ++ q.localName.kebab

end QName

namespace FQName

/-- A fully qualified name from its three written parts. -/
def ofParts (pkg mod loc : String) : FQName := ⟨Path.parse pkg, Path.parse mod, Name.parse loc⟩

/-- A fully qualified name from its three written parts, unless the local name has no word. -/
def ofParts? (pkg mod loc : List Char) : Option FQName :=
  (QName.ofParts? mod loc).map fun q => ⟨Path.ofChars pkg, q.modulePath, q.localName⟩

/-- Reads either written form. -/
def ofChars? (cs : List Char) : Option FQName :=
  match Text.cut? '#' cs with
  | some (head, loc) =>
    if loc.contains '#' || loc.contains ':' then none
    else match Text.pieces ':' head with
      | [pkg, mod] => ofParts? pkg mod loc
      | _ => none
  | none =>
    match Text.pieces ':' cs with
    | [pkg, mod, loc] => ofParts? pkg mod loc
    | _ => none

/-- Reads either written form. -/
def parse? (s : String) : Option FQName := ofChars? s.toList

/-- Reads a fully qualified name, or one relative to `package` with a colon or a hash between module
and local name. -/
def parseIn? (s : String) (package : Path) : Option FQName :=
  match parse? s with
  | some f => some f
  | none =>
    (QName.ofChars? (Text.replaceFirst '#' ':' s.toList)).map fun q =>
      ⟨package, q.modulePath, q.localName⟩

/-- The name without its package. -/
def qname (f : FQName) : QName := ⟨f.modulePath, f.localName⟩

/-- Writes `package:module:local`. -/
def text (f : FQName) : String := f.packagePath.text ++ ":" ++ f.modulePath.text ++ ":" ++ f.localName.kebab

/-- Writes `package:module#local`. -/
def hashText (f : FQName) : String :=
  f.packagePath.text ++ ":" ++ f.modulePath.text ++ "#" ++ f.localName.kebab

end FQName

end IrDialects
