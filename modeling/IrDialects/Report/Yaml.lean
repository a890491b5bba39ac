import IrDialects.Report.Datum
import IrDialects.Yaml.Writer

/-!
# Reports in YAML

Entries and items stand on lines of their own, with two blanks a level; the items of a list are indented
like entries.
-/

namespace IrDialects.Report.Datum

/-- A letter, as far as the order of keys is concerned: ASCII letters and all other characters beyond
ASCII. -/
def isKeyLetter (c : Char) : Bool := c.isAlpha || 0x80 ≤ c.toNat

/-- The number at the start of a text, when digits before it make zeros count. -/
def leadingNumber (start : Nat) (cs : List Char) : Nat :=
  (cs.takeWhile Char.isDigit).foldl (fun n c => n * 10 + (c.toNat - '0'.toNat)) start

/-- Compares keys from the first place where they differ. `before` are the characters that they share,
last one first. -/
def keyBelow (before : List Char) : List Char → List Char → Bool
  | [], bs => !bs.isEmpty
  | _ :: _, [] => false
  | a :: as, b :: bs =>
    if a = b then keyBelow (a :: before) as bs
    else if isKeyLetter a && isKeyLetter b then a < b
    else if isKeyLetter a || isKeyLetter b then
      if before.head?.any Char.isDigit then isKeyLetter a else isKeyLetter b
    else
      let significant := (before.takeWhile Char.isDigit).any (· != '0')
      let start := if (a == '0' || b == '0') && significant then 1 else 0
      let m := leadingNumber start (a :: as)
      let n := leadingNumber start (b :: bs)
      let k := ((a :: as).takeWhile Char.isDigit).length
      let l := ((b :: bs).takeWhile Char.isDigit).length
      if m ≠ n then m < n else if k ≠ l then k < l else a < b

/-- Entries in the order in which a YAML report shows them: numbers inside keys count as numbers. -/
def sortNaturally {α : Type} (entries : List (String × α)) : List (String × α) :=
  entries.mergeSort fun a b => !keyBelow [] b.1.toList a.1.toList

/-- A piece of YAML: a text that follows on the same line, or lines of its own. -/
inductive Block where
  | inline (write : Nat → String)
  /-- Lines for an indentation, without the indentation of the first. -/
  | lines (write : Nat → String)

def lineStart (indent : Nat) : String := String.ofList (Yaml.Writer.blanks indent)

/-- Lines one after the other, each but the first with its indentation. -/
def joinLines (indent : Nat) : List String → String
  | [] => ""
  | [l] => l
  | l :: ls => l ++ lineStart indent ++ joinLines indent ls

/-- A text that ends a line. A block whose last line is complete has done so already. -/
def endLine (s : String) : String :=
  if s.toList.getLast?.any Yaml.isBreak then s else s ++ "\n"

/-- Whether a key can stand in front of a colon: it has one line and is not long. -/
def isSimpleKey (key : String) : Bool :=
  !key.toList.any Yaml.isBreak && key.utf8ByteSize ≤ 128

/-- An entry of a mapping. A key that is not simple has a question mark and lines of its own. -/
def entryText (indent : Nat) (key : String) (b : Block) : String :=
  if isSimpleKey key then
    Yaml.Writer.key key ++ match b with
      | .inline write => ": " ++ endLine (write (indent + 2))
      | .lines write => ":\n" ++ lineStart (indent + 2) ++ write (indent + 2)
  else
    "? " ++ endLine (Yaml.Writer.value (indent + 2) key) ++ lineStart indent ++ match b with
      | .inline write => ": " ++ endLine (write (indent + 2))
      | .lines write => ": " ++ write (indent + 2)

def itemText (indent : Nat) : Block → String
  | .inline write => "- " ++ endLine (write (indent + 2))
  | .lines write => "- " ++ write (indent + 2)

def mappingBlock (entries : List (String × Block)) : Block :=
  if entries.isEmpty then .inline fun _ => "\x7b\x7d"
  else .lines fun indent => joinLines indent (entries.map fun (k, b) => entryText indent k b)

mutual

def block : Datum → Block
  | null => .inline fun _ => "null"
  | bool b => .inline fun _ => if b then "true" else "false"
  | count n => .inline fun _ => toString n
  | number x => .inline fun _ => Number.FloatLayout.document.text x
  | text s => .inline fun indent => Yaml.Writer.value indent s
  | list xs =>
    let bs := blockItems xs
    if bs.isEmpty then .inline fun _ => "[]"
    else .lines fun indent => joinLines indent (bs.map (itemText indent))
  | map es => mappingBlock (sortNaturally (blockEntries es))
  | record fs => mappingBlock (blockEntries fs)

def blockItems : List Datum → List Block
  | [] => []
  | x :: xs => block x :: blockItems xs

def blockEntries : List (String × Datum) → List (String × Block)
  | [] => []
  | (k, x) :: es => (k, block x) :: blockEntries es

end

def yaml (d : Datum) : String :=
  match d.block with
  | .inline write => endLine (write 0)
  | .lines write => write 0

end IrDialects.Report.Datum
