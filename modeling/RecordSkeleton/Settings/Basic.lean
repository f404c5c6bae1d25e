import RecordSkeleton.Text.Basic

/-!
# Settings

The settings of the program and their defaults.
-/

namespace RecordSkeleton

/-- The settings of the program. -/
structure Settings where
  indent : Text := ['\t']
  /-- What stands for a type of a library. -/
  externalPlaceholder : Text := "\x7b\x7d // External type".toList
  /-- What stands for a type that is not expanded again. -/
  recursionPlaceholder : Text := "\x7b\x7d // Recursive type".toList
  /-- The depth from which on nothing is expanded. -/
  maxDepth : Int := 64
  /-- The simple name of the marker that selects a constructor. -/
  marker : Text := "JsonCreator".toList
  /-- The file name endings that are indexed. -/
  extensions : List Text := [".java".toList]
  skipPatterns : List Text :=
    [".git".toList, ".svn".toList, ".hg".toList, ".idea".toList, ".gradle".toList,
      "build".toList, "target".toList, "out".toList, "bin".toList, "node_modules".toList]
  /-- The clipboard command; without one a known command is looked for. -/
  clipboardCommand : Option Text := none
  deriving DecidableEq, Repr

end RecordSkeleton
