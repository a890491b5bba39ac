import IrDialects.Naming.FQName
import IrDialects.Naming.Interner

/-!
# Names in symbols

A name that is kept holds the symbols of its words. Such names are compared by their symbols alone,
and their words are looked up only when they are written.
-/

namespace IrDialects

namespace Interned

/-- A name by the symbols of its words. -/
structure Name where
  symbols : List Symbol := []
deriving DecidableEq, Repr

/-- A sequence of names. -/
structure Path where
  names : List Name := []
deriving DecidableEq, Repr

/-- A name inside a module of a package. -/
structure FQName where
  packagePath : Path := {}
  modulePath : Path := {}
  localName : Name := {}
deriving DecidableEq, Repr

/-- Whether two lists have one length and their items are the same, place by place. -/
def agree {α : Type} (same : α → α → Bool) (xs ys : List α) : Bool :=
  xs.length == ys.length && (xs.zip ys).all fun p => same p.1 p.2

/-- Whether two names have the same symbols. -/
def Name.equal (a b : Name) : Bool := agree (· == ·) a.symbols b.symbols

/-- Whether two paths have equal names. -/
def Path.equal (p q : Path) : Bool := agree Name.equal p.names q.names

/-- Whether two qualified names have equal parts. -/
def FQName.equal (f g : FQName) : Bool :=
  f.packagePath.equal g.packagePath && f.modulePath.equal g.modulePath
    && f.localName.equal g.localName

/-- The words of a name; a symbol that was never issued stands for the empty text. -/
def Name.words (t : Interner) (a : Name) : List String :=
  a.symbols.map fun x : Symbol => (t.resolve? x).getD ""

end Interned

namespace Interner

/-- The symbols of texts, which are put into the table in order. -/
def internAll (t : Interner) : List String → List Symbol × Interner
  | [] => ([], t)
  | s :: ss =>
    let (x, t) := t.intern s
    let (xs, t) := t.internAll ss
    (x :: xs, t)

/-- A name with its words put into the table. -/
def name (t : Interner) (n : Name) : Interned.Name × Interner :=
  let (xs, t) := t.internAll n.words
  (⟨xs⟩, t)

end Interner

end IrDialects
