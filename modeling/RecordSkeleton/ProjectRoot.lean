import RecordSkeleton.FileTree

/-!
# Project roots

The root of the project that a file belongs to is the nearest directory above it that holds a build
file or a repository.
-/

namespace RecordSkeleton

/-- The names that mark a project root. -/
def buildMarkers : List Text :=
  ["pom.xml".toList, "build.gradle".toList, "build.gradle.kts".toList, "settings.gradle".toList,
    "settings.gradle.kts".toList, ".git".toList]

namespace FileTree

/-- Whether a build marker stands in a directory. -/
def isProjectRoot (t : FileTree) (dir : Path) : Except PathError Bool :=
  buildMarkers.anyM fun marker => t.hasPath (dir.child marker)

/-- A path and the paths above it, nearest first. -/
def selfAndAncestors (p : Path) : List Path :=
  (List.range (p.names.length + 1)).reverse.map fun n => ⟨p.slashes, p.names.take n⟩

/-- The nearest project root at or above a path; when there is none, the path itself, or its
directory when it is a file. -/
def projectRoot (t : FileTree) (p : Path) : Except PathError Path := do
  let full ← t.canonicalPath p
  let start : Path := if ← t.isFile full then ⟨full.slashes, full.names.dropLast⟩ else full
  let root? ← (selfAndAncestors start).findM? t.isProjectRoot
  pure (root?.getD start)

end FileTree

end RecordSkeleton
