/-!
# Configuration

How programs are read and judged.
-/

namespace Offside

structure Config where
  /-- Tabs go to the next multiple of this. -/
  tabSize : UInt64 := 8
  /-- The variable whose truth is the result of a program. -/
  resultName : String := "result"
  /-- The directory of the programs that are run as tests. -/
  testDir : String := "tests/scripts"
  /-- Whether to report what happens inside. -/
  debug : Bool := false
  deriving DecidableEq

/-- A tab size of zero acts as one. -/
def Config.withTabSize (config : Config) (tabSize : UInt64) : Config :=
  { config with tabSize := max tabSize 1 }

end Offside
