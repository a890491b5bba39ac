import IrDialects.Text.BaseLetter
import IrDialects.Text.Pieces

/-!
# Names

A name is a sequence of words, such as `value`, `in`, `u`, `s`, `d`. Parsing cuts a text into the
longest words it can: a letter with the small letters after it, or a run of digits. Everything else
separates words.
-/

namespace IrDialects

/-- A word-segmented identifier. -/
structure Name where
  words : List String := []
deriving DecidableEq, Repr, Inhabited

namespace Name

/-- A small ASCII letter. -/
def isSmall (c : Char) : Bool := 'a' ≤ c && c ≤ 'z'

/-- An ASCII letter. -/
def isLetter (c : Char) : Bool := isSmall c || ('A' ≤ c && c ≤ 'Z')

/-- An ASCII digit. -/
def isDigit (c : Char) : Bool := '0' ≤ c && c ≤ '9'

/-- Whether `c` goes on with a word whose latest character is `last`. -/
def continues (last c : Char) : Bool :=
  (isLetter last && isSmall c) || (isDigit last && isDigit c)

/-- The word collected so far, latest character first, as a list of at most one word. -/
def finish : List Char → List String
  | [] => []
  | c :: cs => [String.ofList ((c :: cs).reverse.map Char.toLower)]

/-- The words of a text, where `word` is the one being read, latest character first. -/
def scan : List Char → List Char → List String
  | word, [] => finish word
  | word, c :: cs =>
    if word.head?.any (continues · c) then scan (c :: word) cs
    else if isLetter c || isDigit c then finish word ++ scan [c] cs
    else finish word ++ scan [] cs

/-- The name spelt by a sequence of characters. -/
def ofChars (cs : List Char) : Name := ⟨scan [] (Text.BaseLetter.fold cs)⟩

/-- The name spelt by a text; it is empty when the text holds no word. -/
def parse (s : String) : Name := ofChars s.toList

/-- Whether a name has no words. -/
def isEmpty (n : Name) : Bool := n.words.isEmpty

def length (n : Name) : Nat := n.words.length

/-- The canonical form: words joined by hyphens. -/
def kebab (n : Name) : String := "-".intercalate n.words

/-- Words joined by underscores. -/
def snake (n : Name) : String := "_".intercalate n.words

/-- A word with a capital first letter. -/
def capitalize (w : String) : String :=
  match w.toList with
  | c :: cs => if isSmall c then String.ofList (c.toUpper :: cs) else w
  | [] => w

/-- Words run together, each with a capital. -/
def title (n : Name) : String := String.join (n.words.map capitalize)

/-- Words run together, each but the first with a capital. -/
def camel (n : Name) : String :=
  match n.words with
  | [] => ""
  | w :: ws => w ++ String.join (ws.map capitalize)

end Name

end IrDialects
