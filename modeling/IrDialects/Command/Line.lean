import IrDialects.Command.Flag
import IrDialects.Report.Response
import IrDialects.Text.Distance
import IrDialects.Text.LowerCase

/-!
# Command lines

A command line names a command, which may stand after flags, and gives it flags and the path of a
document.
-/

namespace IrDialects.Command

/-- What can be done with a document. -/
inductive Verb where
  | migrate | detect | inspect | validate
deriving DecidableEq, Repr

def Verb.name : Verb → String
  | migrate => "migrate"
  | detect => "detect"
  | inspect => "inspect"
  | validate => "validate"

/-- What a command line can be about. -/
inductive Topic where
  | verb (verb : Verb)
  /-- Scripts that complete command lines. -/
  | completion
  | help
  /-- The program as a whole, when no command is named. -/
  | program
deriving DecidableEq, Repr

namespace Topic

/-- The topics that have names. -/
def named : List (String × Topic) :=
  ([Verb.migrate, .detect, .inspect, .validate].map fun v => (v.name, verb v))
    ++ [("completion", completion), ("help", help)]

def ofName? (s : String) : Option Topic := named.lookup s

/-- The flags that every command line can set. -/
def commonFlags : List Flag := [.help, .verbose, .format]

def flags : Topic → List Flag
  | verb .migrate => commonFlags ++ [.target, .expanded, .pretty, .output]
  | _ => commonFlags

end Topic

def programName : String := "morphir-ir"

/-- The names that someone may have meant: those within two edits, and those that the name starts. Case
does not matter. Asking for help is never suggested. -/
def suggestions (typed : String) : List String :=
  let typed := Text.LowerCase.lower typed
  (Topic.named.filter fun (name, topic) => topic != .help
      && (Text.Distance.distance (Text.Bytes.encode typed) (Text.Bytes.encode name) ≤ 2
        || typed.toList.isPrefixOf name.toList)).map Prod.fst

/-- Why a command line asks for nothing that can be done. -/
inductive UsageFault where
  | flag (fault : FlagFault)
  | unknownCommand (name : String)
  | wordCount (count : Nat)
  | format (name : String)
deriving DecidableEq, Repr

def UsageFault.message : UsageFault → String
  | flag f => f.message
  | unknownCommand name =>
    "unknown command " ++ Text.Quoted.quote name ++ " for " ++ Text.Quoted.quote programName
      ++ (match suggestions name with
        | [] => ""
        | names => "\n\nDid you mean this?\n" ++ String.join (names.map fun n => "\t" ++ n ++ "\n"))
  | wordCount n => "accepts 1 arg(s), received " ++ toString n
  | format name =>
    "invalid format " ++ Text.Quoted.quote name ++ ": must be one of ["
      ++ " ".intercalate (Report.Format.all.map (·.name)) ++ "]"

/-- Whether an argument in front of the command is taken for a flag with its value in the next
argument. There, only the verbose flag is known to be a switch. -/
def takesNext (argument : String) : Bool :=
  !argument.toList.contains '='
    && ((argument.startsWith "--" && argument != "--verbose")
      || (argument.startsWith "-" && argument.utf8ByteSize == 2 && argument != "-v"))

/-- The arguments that are neither flags nor values of flags, as far as that can be told before the
command is known. A flag whose value would be the last argument ends them. -/
def words : List String → List String
  | [] => []
  | s :: rest =>
    if s == "--" then []
    else if takesNext s then
      match rest with
      | _ :: r :: rest => words (r :: rest)
      | _ => []
    else if s.isEmpty || s.startsWith "-" then words rest
    else s :: words rest

/-- The arguments without the first word that is the given one. -/
def withoutWord (word : String) : List String → List String
  | [] => []
  | s :: rest =>
    if s == "--" then s :: rest
    else if takesNext s then
      match rest with
      | [] => [s]
      | value :: rest => s :: value :: withoutWord word rest
    else if s == word then rest
    else s :: withoutWord word rest

/-- The topic of a command line, and its other arguments. -/
def findTopic (args : List String) : Except UsageFault (Topic × List String) :=
  match words args with
  | [] => .ok (.program, args)
  | w :: _ =>
    match Topic.ofName? w with
    | some topic => .ok (topic, withoutWord w args)
    | none => .error (.unknownCommand w)

/-- A command with its flags and its document. -/
structure Request where
  verb : Verb
  path : String
  reporter : Report.Reporter
  options : Options
deriving DecidableEq, Repr

/-- How to report, if the format exists. -/
def Options.reporter (o : Options) : Except UsageFault Report.Reporter :=
  match Report.Format.ofName? o.format with
  | some f => .ok ⟨f, o.verbose⟩
  | none => .error (.format o.format)

/-- What a command line asks for; `none` stands for information about the program. -/
def Request.parse (args : List String) : Except UsageFault (Option Request) := do
  let (topic, args) ← findTopic args
  let (options, rest) ← (Options.parse topic.flags {} args).mapError .flag
  if options.help then return none
  match topic with
  | .program | .completion => return none
  | .help =>
    let _ ← options.reporter
    return none
  | .verb v =>
    match rest with
    | [path] => return some ⟨v, path, ← options.reporter, options⟩
    | _ => throw (.wordCount rest.length)

end IrDialects.Command
