import BlockWorld.Files.Tree

/-! # Files on disk

What a run is about is taken from the disk into a file tree beforehand, and what the run changed is
put back afterwards.
-/

namespace BlockWorld

namespace Disk

/-- The path that leads through these names, from the top of the disk or from where the program
runs. -/
def spell (fromTop : Bool) (place : List String) : String :=
  (if fromTop then "/" else if place.isEmpty then "." else "") ++ "/".intercalate place

/-- Adds what stands at a place to a tree; below a directory, all there is as well. Where `keep`
does not hold, a file is taken as an empty one. -/
partial def take (fromTop : Bool) (keep : List String → Bool) (below : Bool) (place : List String)
    (files : FileTree) : IO FileTree := do
  let path := spell fromTop place
  let some real ← (try some <$> IO.FS.realPath path catch _ => pure none) | return files
  if (← real.metadata).type == .dir then
    let files := if place.isEmpty then files else files.put place .directory
    if !below then return files
    (← real.readDir).foldlM (fun files e =>
      take fromTop keep below (place ++ [e.fileName]) files) files
  else
    let content ← if keep place then IO.FS.readBinFile path else pure .empty
    return files.put place (.file content.toList)

def takePath (keep : List String → Bool) (path : String) (files : FileTree) : IO FileTree := do
  let fromTop := path.startsWith "/"
  let place := Path.names path
  let files ← (List.range place.length).foldlM
    (fun files n => take fromTop keep false (place.take n) files) files
  take fromTop keep true place files

/-- Writes what is new in a tree, directories before what is in them. -/
def put (fromTop : Bool) (before after : FileTree) : IO Unit := do
  let fresh := after.nodes.filter fun e => before.at? e.1 ≠ some e.2
  for (place, node) in fresh.mergeSort fun a b => a.1.length ≤ b.1.length do
    match node with
    | .directory => IO.FS.createDirAll (spell fromTop place)
    | .file content => IO.FS.writeBinFile (spell fromTop place) ⟨content.toArray⟩

end Disk

end BlockWorld
