import LintGate.Json.Schema
import LintGate.Tool

/-!
The schema of configurations.
-/

namespace LintGate.Config

open Json

/-- The members of the settings of any tool. -/
def toolProperties : List (String × Schema) :=
  [("executable", .string 1), ("arguments", .string 0), ("environment", .stringOrStrings),
    ("workingDir", .string 0), ("timeoutMs", .positiveInteger),
    ("stream", .either Stream.stdout.name Stream.stderr.name), ("enabled", .boolean)]

/-- The settings of a tool, which must name the executable. -/
def toolSchema : Schema :=
  .object toolProperties ["executable"]

/-- The settings of a tool that also has a key of its own. -/
def keyedToolSchema : Schema :=
  .object (toolProperties ++ [("key", .string 0)]) ["executable"]

/-- A whole configuration. -/
def schema : Schema :=
  .object
    [("modifiedLinesOnly", .boolean), ("profile", .string 0), ("projectKey", .string 0),
      ("include", .array (.string 0)), ("exclude", .array (.string 0)),
      ("tools", .object
        [("cppcheck", toolSchema), ("rats", toolSchema), ("vera", toolSchema),
          ("pclint", toolSchema), ("custom", keyedToolSchema)] [])]
    []

end LintGate.Config
