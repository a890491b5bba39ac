import IrDialects.Wire.Dialect
import IrDialects.Wire.Issue

/-!
# Failures of document operations
-/

namespace IrDialects

/-- Why an operation on a document failed. -/
inductive Failure where
  /-- The text is no JSON, or no document of any dialect. -/
  | detect (cause : Fault)
  /-- The text is no document of its own dialect. -/
  | decode (dialect : Dialect) (cause : Fault)
  /-- The document cannot be written; there is no dialect when it was to be fingerprinted. -/
  | encode (dialect : Option Dialect) (cause : Fault)
  /-- There is no dialect with the given name. -/
  | unsupported (name : String)
deriving DecidableEq, Repr

namespace Failure

def code : Failure → String
  | detect _ => "DETECT_FAILED"
  | decode .. => "DECODE_FAILED"
  | encode .. => "ENCODE_FAILED"
  | unsupported _ => "UNSUPPORTED_DIALECT"

/-- What failed, in words. -/
def words : Failure → String
  | detect _ => "cannot detect IR dialect"
  | decode .. => "decode failed"
  | encode .. => "encode failed"
  | unsupported name => "unsupported dialect " ++ Text.Quoted.quote name

/-- The dialect being read or written, if it is known. -/
def dialect? : Failure → Option Dialect
  | decode d _ => some d
  | encode d _ => d
  | _ => none

def cause? : Failure → Option Fault
  | detect f | decode _ f | encode _ f => some f
  | unsupported _ => none

def message (f : Failure) : String :=
  f.code ++ ": " ++ f.words
    ++ (match f.dialect? with
      | some d => " (dialect=" ++ d.name ++ ")"
      | none => "")
    ++ (match f.cause? with
      | some c => ": " ++ c.message
      | none => "")

/-- Whether the dialect could not be told. -/
def isDetect : Failure → Bool
  | detect _ => true
  | _ => false

/-- Whether the document was not one of its dialect. -/
def isDecode : Failure → Bool
  | decode .. => true
  | _ => false

end Failure

end IrDialects
