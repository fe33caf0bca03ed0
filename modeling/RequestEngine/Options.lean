/-!
Contract: the options of an evaluator.

Owns:
- the options with their defaults;
- overriding some of them.

Does not own: files that hold options, or the command line.
-/

namespace RequestEngine

/-- Options that control how an evaluator runs. -/
structure Options where
  /-- Record which requests asked for which. -/
  recordDependencies : Bool := false
  /-- Log every detected cycle as a warning. -/
  debugCycles : Bool := false
  /-- Collect counts and times of computations per kind. -/
  collectStatistics : Bool := false
  /-- Highlight diagnostics. -/
  pretty : Bool := true
deriving DecidableEq, Repr, Inhabited

def Options.toList (options : Options) : List Bool :=
  [options.recordDependencies, options.debugCycles, options.collectStatistics, options.pretty]

/-- Options given separately; an absent one leaves the option as it is. -/
structure OptionOverrides where
  recordDependencies : Option Bool := none
  debugCycles : Option Bool := none
  collectStatistics : Option Bool := none
  pretty : Option Bool := none
deriving DecidableEq, Repr

/-- The options after the overrides that are present. -/
def Options.overridden (options : Options) (overrides : OptionOverrides) : Options where
  recordDependencies := overrides.recordDependencies.getD options.recordDependencies
  debugCycles := overrides.debugCycles.getD options.debugCycles
  collectStatistics := overrides.collectStatistics.getD options.collectStatistics
  pretty := overrides.pretty.getD options.pretty

@[simp]
theorem Options.overridden_none (options : Options) : options.overridden {} = options := rfl

end RequestEngine
