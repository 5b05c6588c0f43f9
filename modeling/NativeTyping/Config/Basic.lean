/-!
Switches for the optional parts of the analysis.
-/

namespace NativeTyping

structure Config where
  /-- Trust the type hints on parameters, results and variables. -/
  useHints : Bool := true
  /-- Determine the results of functions without a hint from their bodies. -/
  inferReturns : Bool := true
  /-- Turn fixed arrays that are grown or shrunk somewhere into lists. -/
  promoteArrays : Bool := true
  /-- Make list literals of constants of one shape fixed arrays. -/
  literalArrays : Bool := true
  deriving DecidableEq, Repr

inductive Config.Choice where
  | ignoreHints
  | withoutReturnInference
  | withoutArrayPromotion
  | withoutLiteralArrays
  deriving DecidableEq, Repr

namespace Config

def set (config : Config) : Config.Choice → Config
  | .ignoreHints => { config with useHints := false }
  | .withoutReturnInference => { config with inferReturns := false }
  | .withoutArrayPromotion => { config with promoteArrays := false }
  | .withoutLiteralArrays => { config with literalArrays := false }

end Config

end NativeTyping
