import IrDialects.Json.Layout
import IrDialects.Report.Datum
import IrDialects.Text.Quoted

/-!
# Reports in JSON

Reports are laid out with two blanks a level. Characters that matter to HTML and the separators of
lines and paragraphs are escaped.
-/

namespace IrDialects.Report.Datum

def jsonChar (c : Char) : List Char :=
  let numbered := '\\' :: 'u' :: Text.Quoted.hex 4 c.toNat
  if c == '"' || c == '\\' then ['\\', c]
  else if c == '\n' then ['\\', 'n']
  else if c == '\r' then ['\\', 'r']
  else if c == '\t' then ['\\', 't']
  else if c < ' ' || c == '<' || c == '>' || c == '&' || c == '\u2028' || c == '\u2029' then numbered
  else [c]

def jsonText (s : String) : List Char := '"' :: s.toList.flatMap jsonChar ++ ['"']

mutual

def outline : Datum → Json.Outline
  | null => .scalar "null".toList
  | bool b => .scalar (if b then "true" else "false").toList
  | count n => .scalar (toString n).toList
  | number x => .scalar (Number.FloatLayout.report.text x).toList
  | text s => .scalar (jsonText s)
  | list xs => .array (outlineItems xs)
  | map es => .object ((sortEntries (outlineEntries es)).map fun (k, o) => (jsonText k, o))
  | record fs => .object ((outlineEntries fs).map fun (k, o) => (jsonText k, o))

def outlineItems : List Datum → List Json.Outline
  | [] => []
  | x :: xs => outline x :: outlineItems xs

def outlineEntries : List (String × Datum) → List (String × Json.Outline)
  | [] => []
  | (k, x) :: es => (k, outline x) :: outlineEntries es

end

def json (d : Datum) : String := Json.Layout.render 0 d.outline ++ "\n"

end IrDialects.Report.Datum
