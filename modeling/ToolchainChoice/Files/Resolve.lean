import ToolchainChoice.Failure
import ToolchainChoice.Files.Disk

/-!
# The real path of a place

A path is resolved by replacing every link on it by what the link resolves to. Names that do not
exist are kept, and a `..` takes back the name before it whether that exists or not. A link that
is met again while it is being resolved closes a circle: what has been resolved so far stays, with
the names that are left, and the system is asked whether it can follow the result.
-/
namespace ToolchainChoice.Files

/-- The place that names lead to from `place` if no link is followed. -/
def lexical (place : Place) (names : List String) : Place :=
  names.foldl
    (fun place name =>
      if !isName name then place else if name = ".." then place.dropLast else place ++ [name])
    place

/-- Resolves names from a place that holds no link. The links in `pending` are being resolved;
`depth` bounds how many more can be, which the number of links in the tree does. The error is the
place where a circle closes. -/
def resolveFrom (root : Entry) (depth : Nat) (pending : List Place) (here : Place)
    (names : List String) : Except Place Place :=
  match names with
  | [] => .ok here
  | name :: names =>
    if !isName name then resolveFrom root depth pending here names
    else if name = ".." then resolveFrom root depth pending here.dropLast names
    else
      let next := here ++ [name]
      match root.at? next with
      | some (.link target) =>
        if pending.contains next then .error (lexical next names)
        else
          match depth with
          | 0 => .error (lexical next names)
          | depth + 1 =>
            let start := if Path.startOf target.toList = .current then here else []
            match resolveFrom root depth (next :: pending) start (rawNames target) with
            | .ok place => resolveFrom root (depth + 1) pending place names
            | .error place => .error (lexical place names)
      | _ => resolveFrom root depth pending next names
termination_by (depth, names.length)

/-- The path from the root with every link on it resolved. -/
def Disk.resolve (d : Disk) (p : Path) : Except Failure Path :=
  if p.hasNul then .error .nulInPath
  else
    match resolveFrom d.root d.root.linkCount [] (d.startPlace p) p.names with
    | .ok place => .ok (.ofRoot place)
    | .error place =>
      match d.entryAt (.ofRoot place) with
      | .error .tooManyLinks => .error .linkLoop
      | _ => .ok (.ofRoot place)

end ToolchainChoice.Files
