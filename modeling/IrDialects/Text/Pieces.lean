/-!
# Pieces of a text

Cutting a text at a separating character. A text with `n` separators has `n + 1` pieces, some of
them perhaps empty.
-/

namespace IrDialects.Text

/-- The pieces of a text between the occurrences of `sep`. -/
def pieces (sep : Char) : List Char → List (List Char)
  | [] => [[]]
  | c :: cs =>
    if c = sep then [] :: pieces sep cs
    else match pieces sep cs with
      | [] => [[c]]
      | p :: ps => (c :: p) :: ps

/-- The pieces of a text, as texts. -/
def splitAt (sep : Char) (s : String) : List String :=
  (pieces sep s.toList).map String.ofList

/-- What stands before the first `sep` and what stands after it. -/
def cut? (sep : Char) : List Char → Option (List Char × List Char)
  | [] => none
  | c :: cs =>
    if c = sep then some ([], cs)
    else (cut? sep cs).map fun (before, after) => (c :: before, after)

/-- The first occurrence of `old` replaced by `new`. -/
def replaceFirst (old new : Char) : List Char → List Char
  | [] => []
  | c :: cs => if c = old then new :: cs else c :: replaceFirst old new cs

/-- The rest of a text with every occurrence of `old` replaced by `new`, after `skip` characters that
belong to the occurrence before. -/
def replaceFrom (old new : List Char) : Nat → List Char → List Char
  | _, [] => []
  | skip + 1, _ :: cs => replaceFrom old new skip cs
  | 0, c :: cs =>
    if old.isPrefixOf (c :: cs) then new ++ replaceFrom old new (old.length - 1) cs
    else c :: replaceFrom old new 0 cs

/-- A text with every occurrence of `old` replaced by `new`. Occurrences are looked for from left to
right and do not overlap; `old` is not empty. -/
def replaceAll (old new cs : List Char) : List Char := replaceFrom old new 0 cs

/-- What follows `start` in `cs`, when `cs` begins with it. -/
def dropStart? : List Char → List Char → Option (List Char)
  | [], cs => some cs
  | _ :: _, [] => none
  | s :: start, c :: cs => if s = c then dropStart? start cs else none

/-- Whether `part` occurs in `cs`. -/
def occursIn (part : List Char) : List Char → Bool
  | [] => part.isEmpty
  | c :: cs => part.isPrefixOf (c :: cs) || occursIn part cs

/-- Whether the text `part` occurs in the text `s`. -/
def contains (s part : String) : Bool := occursIn part.toList s.toList

end IrDialects.Text
