import Provenance.Config.Discovery

/-!
# What loading looks at

The paths that loading a configuration may look at, as far as the files of a tree tell. A tree
that knows what stands at all of them is as good as one that knows all files.
-/

namespace Provenance.Config

/-- The paths that a path may name a file by, its manifest among them. -/
def targetPaths (t : FileTree) (p : Path) : List Path :=
  let entryPaths := match main? t p with
    | none => []
    | some main =>
      let entry := p.join (.ofText main)
      [entry, entry.withEnding ".json", entry.child "index.json"]
  [p, p.withEnding ".json", p.child "package.json"] ++ entryPaths ++ [p.child "index.json"]

/-- The paths that a reference written in a directory may name a file by. -/
def referencePaths (t : FileTree) (location : String) (directory : Path) : List Path :=
  if isPath location then targetPaths t (directory.join (.ofText location))
  else directory.ancestors.flatMap fun d => targetPaths t (modulePath d location)

/-- The paths that loading a file may look at. -/
def chainPaths (t : FileTree) (visited : List Place) (path : Path) : List Path :=
  match _h : t.locate path with
  | .error _ | .ok (_, .directory) => [path]
  | .ok (place, .file content) =>
    if _hv : place ∈ visited then [path]
    else match (documentOf content).toOption.bind extends? with
      | none => [path]
      | some location =>
        path :: besidePath path location ::
          referencePaths t location (path.parent?.getD (.ofText ".")) ++
            match base? t path location with
            | none => []
            | some base => chainPaths t (visited ++ [place]) base.path
termination_by t.unvisited visited
decreasing_by exact FileTree.unvisited_lt _h _hv

/-- The paths that loading the configuration of a project may look at. -/
def projectPaths (t : FileTree) (cwd : Path) (given : Option String) (ceiling : Option Path) :
    List Path :=
  (given.map (overridePath cwd)).toList ++ cwd.ancestors.map (·.child configFileName) ++
    match discover t cwd given ceiling with
    | .error _ => []
    | .ok path => chainPaths t [] path

end Provenance.Config
