import IrDialects.Sample.Builder

/-!
# Chains of applications

A function applied over and over, as a tree and as a text.
-/

namespace IrDialects.Sample

variable {τ ν : Type}

/-- The variable `f` applied to the variable `x` for `depth` times. -/
def applyChain (b : Builder τ ν) (depth : Nat) : Value τ ν :=
  b.apply (b.var "f") (List.replicate depth (b.var "x"))

/-- How many value nodes a chain has. -/
def applyChainNodes (depth : Nat) : Nat := 2 * depth + 1

/-- The Classic text of a chain, with `null` for all attributes. -/
def applyChainText (depth : Nat) : String :=
  String.join (List.replicate depth "[\"Apply\",null,")
    ++ "[\"Variable\",null,[\"f\"]]"
    ++ String.join (List.replicate depth ",[\"Variable\",null,[\"x\"]]]")

end IrDialects.Sample
