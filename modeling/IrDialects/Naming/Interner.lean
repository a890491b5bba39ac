/-!
# Symbol tables

A table gives each text a symbol, which is a number of 32 bits, counting from zero in the order in
which texts first appear. Texts are never taken out, so a symbol keeps its text.
-/

namespace IrDialects

/-- A number of 32 bits that stands for a text. -/
abbrev Symbol := Fin UInt32.size

/-- The symbol of the text at an index: the low bits of the index. -/
def Symbol.ofIndex (i : Nat) : Symbol := Fin.ofNat UInt32.size i

/-- The texts that have symbols. -/
structure Interner where
  /-- The symbol of each text, latest first. -/
  symbols : List (String × Symbol) := []
  /-- The texts, in the order of their symbols. -/
  texts : List String := []
deriving DecidableEq, Repr

namespace Interner

/-- The symbol of a text, if it is in the table. -/
def symbol? (t : Interner) (s : String) : Option Symbol := t.symbols.lookup s

/-- The table with a text at its end. -/
def push (t : Interner) (s : String) : Interner :=
  ⟨(s, .ofIndex t.texts.length) :: t.symbols, t.texts ++ [s]⟩

/-- The symbol of a text and the table that holds it. -/
def intern (t : Interner) (s : String) : Symbol × Interner :=
  match t.symbol? s with
  | some x => (x, t)
  | none => (.ofIndex t.texts.length, t.push s)

/-- The text of the symbol with a given number. -/
def resolve? (t : Interner) (number : Nat) : Option String := t.texts[number]?

def size (t : Interner) : Nat := t.texts.length

end Interner

end IrDialects
