import IrDialects.Naming.FQName

/-!
# Holes and native operations

Why a program may have gaps, and what is said about operations that the platform provides.
-/

namespace IrDialects

/-- Why there is a hole. -/
inductive HoleReason where
  | unresolvedReference (target : FQName)
  | deletedDuringRefactor (transaction : String)
  | typeMismatch (expected found : String)
  | draft
deriving DecidableEq, Repr

/-- In which way a definition is unfinished. -/
inductive Incompleteness where
  | hole (reason : HoleReason)
  | draft
deriving DecidableEq, Repr

/-- What kind of operation a native value is. -/
inductive NativeHint where
  | arithmetic
  | comparison
  | stringOp
  | collectionOp
  | platformSpecific (platform : String)
deriving DecidableEq, Repr

/-- The description of a native operation. -/
structure NativeInfo where
  hint : NativeHint
  description : String := ""
deriving DecidableEq, Repr

end IrDialects
