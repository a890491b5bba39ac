/-!
# Cursors

The position of a node as the segments that lead to it.
-/

namespace IrDialects

/-- A position in a tree. -/
structure Cursor where
  /-- The segments entered, innermost first. -/
  entered : List String := []
deriving DecidableEq, Repr

namespace Cursor

def enter (c : Cursor) (segment : String) : Cursor := ⟨segment :: c.entered⟩

/-- One level further out; the root stays where it is. -/
def exit (c : Cursor) : Cursor := ⟨c.entered.tail⟩

def depth (c : Cursor) : Nat := c.entered.length

/-- The segments, outermost first. -/
def path (c : Cursor) : List String := c.entered.reverse

/-- The position as a text; the root is a single slash. -/
def text (c : Cursor) : String := "/" ++ "/".intercalate c.path

@[simp] theorem exit_enter (c : Cursor) (segment : String) : (c.enter segment).exit = c := rfl

@[simp] theorem path_enter (c : Cursor) (segment : String) :
    (c.enter segment).path = c.path ++ [segment] := by simp [enter, path]

end Cursor

end IrDialects
