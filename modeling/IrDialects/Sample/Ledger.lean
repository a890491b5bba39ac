import IrDialects.Sample.Builder

/-!
# Sample distributions

A small ledger that uses every construct: a library, an application that adds a module of unfinished
and native definitions, and the interfaces that both depend on.
-/

namespace IrDialects.Sample

variable {τ ν : Type} (b : Builder τ ν)

/-- The package that the samples depend on. -/
def sdkPackage : String := "morphir/s-d-k"

def samplePackage : String := "acme/finance"

def sampleModule : String := "ledger"

/-- The module of unfinished definitions. -/
def draftModule : String := "ledger/draft"

/-- A name in the package that the samples depend on. -/
def sdk (mod loc : String) : FQName := .ofParts sdkPackage mod loc

/-- A name in the main module. -/
def own (loc : String) : FQName := .ofParts samplePackage sampleModule loc

def addName : FQName := sdk "basics" "add"

/-- The type of amounts and other fractional numbers. -/
def floatType : TypeExpr τ := b.typeReference (sdk "basics" "float") []

def intType : TypeExpr τ := b.typeReference (sdk "basics" "int") []

def stringType : TypeExpr τ := b.typeReference (sdk "string" "string") []

def listType (item : TypeExpr τ) : TypeExpr τ := b.typeReference (sdk "list" "list") [item]

def ownType (loc : String) : TypeExpr τ := b.typeReference (own loc) []

/-- A number that a decimal with few digits denotes. -/
def float (coefficient : Nat) (exponent : Int) : Literal :=
  .float (.ofDecimal false coefficient exponent)

def basics : ModuleSpecification τ where
  types :=
    [⟨.parse "float", "", .abstract []⟩,
      ⟨.parse "int", "", .abstract []⟩,
      ⟨.parse "bool", "True or False", .custom [] [⟨.parse "true", []⟩, ⟨.parse "false", []⟩]⟩]
  values :=
    let binary : ValueSpecification τ :=
      ⟨[(.parse "a", floatType b), (.parse "b", floatType b)], floatType b⟩
    [⟨.parse "add", "", binary⟩, ⟨.parse "subtract", "", binary⟩]
  doc := "Basic arithmetic"

def lists : ModuleSpecification τ where
  types := [⟨.parse "list", "", .abstract [.parse "a"]⟩]
  values :=
    [⟨.parse "foldl", "",
      [(.parse "f", b.functionType [b.typeVariable "a", b.typeVariable "b"] (b.typeVariable "b")),
        (.parse "init", b.typeVariable "b"),
        (.parse "xs", listType b (b.typeVariable "a"))],
      b.typeVariable "b"⟩]

def strings : ModuleSpecification τ where
  types := [⟨.parse "string", "", .synonym [] (listType b (intType b))⟩]

/-- The interfaces that the samples depend on. -/
def sdkDependency : Dependency τ :=
  ⟨.parse sdkPackage, ⟨[⟨.parse "basics", basics b⟩, ⟨.parse "list", lists b⟩,
    ⟨.parse "string", strings b⟩]⟩⟩

def ledgerTypes : List (TypeEntry τ) :=
  let amount := ownType b "amount"
  [⟨.parse "amount", .everyone, "A monetary amount", .synonym [] (floatType b)⟩,
    ⟨.parse "entry", .everyone, "", .custom [] .everyone
      [⟨.parse "debit", [(.parse "amount", amount)]⟩,
        ⟨.parse "credit", [(.parse "amount", amount)]⟩]⟩,
    ⟨.parse "account", .everyone, "", .synonym [] (.record b.onTypes
      [(.parse "id", stringType b), (.parse "balance", amount),
        (.parse "entries", listType b (ownType b "entry"))])⟩,
    ⟨.parse "named", .everyone, "", .synonym [.parse "a"]
      (.extensibleRecord b.onTypes (.parse "a") [(.parse "name", stringType b)])⟩,
    ⟨.parse "handler", .packageOnly, "", .synonym [.parse "a"]
      (b.functionType [b.unitType] (b.tupleType [stringType b, b.typeVariable "a"]))⟩,
    ⟨.parse "audit token", .packageOnly, "", .custom [] .packageOnly
      [⟨.parse "audit token", []⟩]⟩]

/-- The sum of all entries, by a fold over them. -/
def balance : ValueDefinition τ ν :=
  let booking (kind operation : String) : Pattern ν × Value τ ν :=
    (.constructor b.onValues (own kind) [b.bind "amount"],
      b.apply (b.reference (sdk "basics" operation)) [b.var "acc", b.var "amount"])
  let step := b.lambda (b.bind "entry") (b.lambda (b.bind "acc")
    (b.patternMatch (b.var "entry") [booking "debit" "subtract", booking "credit" "add"]))
  .ofExpression [b.input "entries" (listType b (ownType b "entry"))] (ownType b "amount")
    (b.apply (b.reference (sdk "list" "foldl")) [step, b.literal (float 0 0), b.var "entries"])

/-- The number of items of a list, by recursion. -/
def count : ValueDefinition τ ν :=
  .ofExpression [b.input "xs" (listType b (b.typeVariable "a"))] (intType b)
    (b.patternMatch (b.var "xs")
      [(.emptyList b.onValues, b.integer 0),
        (.headTail b.onValues b.wildcard (b.bind "rest"),
          b.apply (b.reference addName)
            [b.integer 1, b.apply (b.var "count") [b.var "rest"]])])

/-- A record with a value of every simple kind. -/
def details : Value τ ν :=
  .record b.onValues
    [(.parse "label", b.var "label"),
      (.parse "sizes", b.list
        [b.apply (b.var "count") [b.field (b.var "account") "entries"], b.integer (-1)]),
      (.parse "grade", b.literal (.char 'a')),
      (.parse "ratio", b.literal (float 15 (-1))),
      (.parse "exact", b.literal (.decimal "1.230")),
      (.parse "getter", .fieldFunction b.onValues (.parse "balance")),
      (.parse "kind", b.apply (b.constructor (own "debit")) [b.literal (float 225 (-2))]),
      (.parse "check", b.patternMatch (b.tuple [b.unit, b.var "label"])
        [(.tuple b.onValues [.unit b.onValues, .literal b.onValues (.string "summary")],
            b.literal (.bool true)),
          (b.wildcard, b.literal (.bool false))])]

def summaryBody : Value τ ν :=
  .letDefinition b.onValues (.parse "total")
    (.ofExpression [] (ownType b "amount")
      (b.apply (b.reference (own "balance")) [b.field (b.var "account") "entries"]))
    (.letRecursion b.onValues [(.parse "count", count b)]
      (.destructure b.onValues (.tuple b.onValues [b.bind "label", b.bind "flag"])
        (b.tuple [b.literal (.string "summary"), b.literal (.bool true)])
        (.ifThenElse b.onValues (b.var "flag")
          (.updateRecord b.onValues (b.var "account") [(.parse "balance", b.var "total")])
          (b.tuple [b.var "account", details b]))))

def ledger : ModuleDefinition τ ν where
  types := ledgerTypes b
  values :=
    let account := ownType b "account"
    [⟨.parse "balance", .everyone, "Sum of all entries", balance b⟩,
      ⟨.parse "summary", .everyone, "",
        .ofExpression [b.input "account" account] (b.tupleType [account, b.unitType]) (summaryBody b)⟩,
      ⟨.parse "identity", .packageOnly, "",
        .ofExpression [] (b.functionType [b.typeVariable "a"] (b.typeVariable "a"))
          (b.lambda (b.bind "x") (b.var "x"))⟩]
  doc := "Double-entry ledger"

/-- The module of unfinished and native definitions. -/
def draft : ModuleDefinition τ ν where
  types :=
    [⟨.parse "pending", .everyone, "",
        .incomplete [.parse "a"] (.hole .draft) (some (b.typeVariable "a"))⟩,
      ⟨.parse "sketch", .packageOnly, "", .incomplete [] .draft none⟩]
  values :=
    let number := floatType b
    [⟨.parse "todo", .everyone, "",
        .ofExpression [] number (b.hole (.unresolvedReference (own "interest")) (some number))⟩,
      ⟨.parse "sqrt", .everyone, "",
        .mk [b.input "x" number] number (.native ⟨.arithmetic, "square root"⟩)⟩,
      ⟨.parse "now", .everyone, "", .mk [] number (.external "Date.now" "javascript")⟩,
      ⟨.parse "later", .packageOnly, "", .mk [] number (.incomplete .draft)⟩,
      ⟨.parse "mixed", .packageOnly, "", .ofExpression [] b.unitType (b.tuple
        [.native b.onValues addName ⟨.platformSpecific "jvm", ""⟩,
          .external b.onValues "Math.max" "javascript",
          b.hole (.typeMismatch "Float" "String") none,
          b.hole (.deletedDuringRefactor "tx-42") none,
          b.hole .draft none])⟩,
      ⟨.parse "stub", .packageOnly, "",
        .mk [] number (.incomplete (.hole (.typeMismatch "Int" "Float")))⟩]

def libraryModules : List (ModuleEntry τ ν) := [⟨.parse sampleModule, .everyone, ledger b⟩]

def library : Distribution τ ν :=
  .library (.parse samplePackage) [sdkDependency b] ⟨libraryModules b⟩

def application : Distribution τ ν :=
  .application (.parse samplePackage) [sdkDependency b]
    ⟨libraryModules b ++ [⟨.parse draftModule, .packageOnly, draft b⟩]⟩
    [⟨.parse "main", own "summary", .main, "Print an account summary"⟩]

def specs : Distribution τ ν :=
  let dep := sdkDependency b
  .specs dep.name [] dep.specification

end IrDialects.Sample
