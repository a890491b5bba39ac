import IrDialects.Text.Bytes
import IrDialects.Text.Pieces
import IrDialects.Text.Quoted

/-!
# Flags

Arguments that start with a dash set flags. A long flag is `--name`, `--name=value` or `--name value`;
letters can be grouped as in `-vt classic`. A switch needs no value and takes the next argument for
something else. What follows `--` is no flag. Flags and other arguments can be mixed.
-/

namespace IrDialects.Command

/-- A flag. -/
inductive Flag where
  | help | verbose | format | target | expanded | pretty | output
deriving DecidableEq, Repr

namespace Flag

/-- The name of a flag, without dashes. -/
def name : Flag → String
  | help => "help"
  | verbose => "verbose"
  | format => "format"
  | target => "target"
  | expanded => "expanded"
  | pretty => "pretty"
  | output => "output"

def letter? : Flag → Option Char
  | help => some 'h'
  | verbose => some 'v'
  | target => some 't'
  | output => some 'o'
  | format | expanded | pretty => none

/-- Whether a flag is on or off, and on when it has no value. -/
def isSwitch : Flag → Bool
  | help | verbose | expanded | pretty => true
  | format | target | output => false

def shown (f : Flag) : String :=
  match f.letter? with
  | some c => "-" ++ String.singleton c ++ ", --" ++ f.name
  | none => "--" ++ f.name

end Flag

/-- Why flags could not be read. -/
inductive FlagFault where
  /-- An argument that starts like a long flag and goes on with `-` or `=`. -/
  | badForm (argument : String)
  | unknownName (name : String)
  /-- A letter of no flag, with its group from there on. -/
  | unknownLetter (letter : Char) (group : String)
  | noValue (argument : String)
  | noLetterValue (letter : Char) (group : String)
  /-- A value that is neither yes nor no. -/
  | noSwitchValue (value : String) (flag : Flag)
deriving DecidableEq, Repr

/-- The character that a message shows for a letter: letters are single bytes there, so of a longer
character only the first byte is shown. -/
def FlagFault.shownLetter (c : Char) : Char :=
  match Text.Bytes.encode (String.singleton c) with
  | b :: _ => Char.ofNat b.toNat
  | [] => c

def FlagFault.message : FlagFault → String
  | badForm s => "bad flag syntax: " ++ s
  | unknownName s => "unknown flag: --" ++ s
  | unknownLetter c group =>
    "unknown shorthand flag: " ++ Text.Quoted.quoteChar (shownLetter c) ++ " in -" ++ group
  | noValue s => "flag needs an argument: " ++ s
  | noLetterValue c group =>
    "flag needs an argument: " ++ Text.Quoted.quoteChar (shownLetter c) ++ " in -" ++ group
  | noSwitchValue v f =>
    "invalid argument " ++ Text.Quoted.quote v ++ " for " ++ Text.Quoted.quote f.shown
      ++ " flag: strconv.ParseBool: parsing " ++ Text.Quoted.quote v ++ ": invalid syntax"

/-- The values of all flags. -/
structure Options where
  help : Bool := false
  verbose : Bool := false
  format : String := "text"
  target : String := "latest"
  expanded : Bool := false
  pretty : Bool := false
  output : String := ""
deriving DecidableEq, Repr

/-- What a text says about a switch. -/
def switchValue? (s : String) : Option Bool :=
  if s ∈ ["1", "t", "T", "TRUE", "true", "True"] then some true
  else if s ∈ ["0", "f", "F", "FALSE", "false", "False"] then some false
  else none

def Options.set (o : Options) (f : Flag) (value : String) : Except FlagFault Options :=
  let switch (set : Bool → Options) : Except FlagFault Options :=
    match switchValue? value with
    | some b => .ok (set b)
    | none => .error (.noSwitchValue value f)
  match f with
  | .help => switch fun b => { o with help := b }
  | .verbose => switch fun b => { o with verbose := b }
  | .expanded => switch fun b => { o with expanded := b }
  | .pretty => switch fun b => { o with pretty := b }
  | .format => .ok { o with format := value }
  | .target => .ok { o with target := value }
  | .output => .ok { o with output := value }

/-- The options with flags set in turn. -/
def Options.setAll (o : Options) (settings : List (Flag × String)) : Except FlagFault Options :=
  settings.foldlM (fun o (f, v) => o.set f v) o

/-- What an argument says. -/
inductive Argument where
  /-- It is no flag. -/
  | word
  /-- No argument after it is a flag. -/
  | separator
  | settings (settings : List (Flag × String))
  /-- Settings, and a flag whose value is the next argument; without one there is a fault. -/
  | awaiting (settings : List (Flag × String)) (flag : Flag) (fault : FlagFault)
deriving DecidableEq, Repr

namespace Argument

/-- What an argument says after one more setting. -/
def after (setting : Flag × String) : Argument → Argument
  | settings s => settings (setting :: s)
  | awaiting s f e => awaiting (setting :: s) f e
  | a => a

/-- What a long flag says; `body` is what follows the dashes. -/
def long (flags : List Flag) (argument : String) (body : List Char) : Except FlagFault Argument :=
  if body.head? = some '-' ∨ body.head? = some '=' then .error (.badForm argument)
  else
    let (name, value?) := match Text.cut? '=' body with
      | some (name, value) => (String.ofList name, some (String.ofList value))
      | none => (String.ofList body, none)
    match flags.find? (·.name == name), value? with
    | none, _ => .error (.unknownName name)
    | some f, some value => .ok (settings [(f, value)])
    | some f, none =>
      .ok (if f.isSwitch then settings [(f, "true")] else awaiting [] f (.noValue argument))

/-- What a group of letters says. A group that goes on with `test.` ends there. -/
def letters (flags : List Flag) : List Char → Except FlagFault Argument
  | [] => .ok (settings [])
  | c :: cs =>
    if "test.".toList.isPrefixOf (c :: cs) then .ok (settings [])
    else
      match flags.find? (·.letter? == some c) with
      | none => .error (.unknownLetter c (String.ofList (c :: cs)))
      | some f =>
        match cs with
        | '=' :: v :: vs => .ok (settings [(f, String.ofList (v :: vs))])
        | _ =>
          if f.isSwitch then (after (f, "true")) <$> letters flags cs
          else if cs.isEmpty then .ok (awaiting [] f (.noLetterValue c (String.singleton c)))
          else .ok (settings [(f, String.ofList cs)])

/-- What an argument says where the given flags can be set. -/
def read (flags : List Flag) (argument : String) : Except FlagFault Argument :=
  match argument.toList with
  | ['-', '-'] => .ok separator
  | '-' :: '-' :: body => long flags argument body
  | '-' :: c :: cs => letters flags (c :: cs)
  | _ => .ok word

end Argument

/-- Sets the flags among arguments. The other arguments are left, in their order. -/
def Options.parse (flags : List Flag) (o : Options) :
    List String → Except FlagFault (Options × List String)
  | [] => .ok (o, [])
  | s :: rest => do
    match ← Argument.read flags s with
    | .word =>
      let (o, words) ← parse flags o rest
      return (o, s :: words)
    | .separator => return (o, rest)
    | .settings settings => parse flags (← o.setAll settings) rest
    | .awaiting settings f fault =>
      let o ← o.setAll settings
      match rest with
      | [] => throw fault
      | value :: rest => parse flags (← o.set f value) rest

end IrDialects.Command
