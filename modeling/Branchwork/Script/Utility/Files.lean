import Branchwork.Script.Utility.Basic

/-!
# Utilities for files

Programs that list, make, copy, move and remove files and directories.
-/

namespace Branchwork.Script.Utility

open FileSystem (Entry Reason)

/-- What a word leads to. -/
def found (word : String) : Sh (Except Reason (Location × Entry)) := do
  let s ← get
  return if word = "" then .error .missing else s.files.stat s.directory (pathOf word)

/-- Changes the files. -/
def setFiles (files : FileSystem) : Sh Unit := modify fun s => { s with files }

/-- Takes a step for each word; the status is that of the worst one. -/
def forEach (words : List String) (step : String → Sh Int) : Sh Int := do
  return (← words.mapM step).foldl max 0

/-- Removes files, and directories if that is asked for. -/
def rm (words : List String) : Sh Int :=
  withOptions "rm" "rRfiv" "" words fun o => do
    let forced := o.has 'f'
    if o.words.isEmpty && !forced then return ← refuse "rm" "missing operand"
    forEach o.words fun word => do
      let cannot (reason : Reason) : Sh Int :=
        complain "rm" s!"cannot remove '{word}': {reason.text}"
      match ← found word with
      | .error reason => if forced && reason = .missing then return 0 else cannot reason
      | .ok (place, entry) =>
        if entry = .directory && !(o.has 'r' || o.has 'R') then cannot .isDirectory
        else
          setFiles ((← get).files.remove place)
          return 0

/-- Removes empty directories. -/
def rmdir (words : List String) : Sh Int :=
  withOptions "rmdir" "" "" words fun o => do
    if o.words.isEmpty then return ← refuse "rmdir" "missing operand"
    forEach o.words fun word => do
      let cannot (reason : String) : Sh Int :=
        complain "rmdir" s!"failed to remove '{word}': {reason}"
      match ← found word with
      | .error reason => cannot reason.text
      | .ok (_, .file _) => cannot Reason.notDirectory.text
      | .ok (place, .directory) =>
        let s ← get
        if !(s.files.children place).isEmpty then cannot "Directory not empty"
        else
          setFiles (s.files.remove place)
          return 0

/-- Makes directories, and with an option also those above them. -/
def mkdir (words : List String) : Sh Int :=
  withOptions "mkdir" "p" "m" words fun o => do
    if o.words.isEmpty then return ← refuse "mkdir" "missing operand"
    forEach o.words fun word => do
      let s ← get
      let p := pathOf word
      let cannot (reason : Reason) : Sh Int :=
        complain "mkdir" s!"cannot create directory '{word}': {reason.text}"
      if word = "" then cannot .missing
      else if o.has 'p' then
        let (fault?, files) := s.files.ensureDirectories s.directory p
        setFiles files
        match fault? with
        | none => return 0
        | some fault => cannot fault.reason
      else
        match s.files.makeDirectory s.directory p with
        | .ok files =>
          setFiles files
          return 0
        | .error reason => cannot reason

/-- Makes empty files where there are none. -/
def touch (words : List String) : Sh Int :=
  withOptions "touch" "acm" "" words fun o => do
    if o.words.isEmpty then return ← refuse "touch" "missing file operand"
    forEach o.words fun word => do
      match ← found word with
      | .ok _ => return 0
      | .error _ =>
        if o.has 'c' then return 0
        let s ← get
        match s.files.writeFile s.directory (pathOf word) [] with
        | .ok files =>
          setFiles files
          return 0
        | .error fault => complain "touch" s!"cannot touch '{word}': {fault.reason.text}"

/-- The path that a file gets when it is put at a target, which may be a directory. -/
def targetOf (target word : String) : Sh Path := do
  let s ← get
  let p := pathOf target
  return if s.files.isDirectory s.directory p then p.below [(pathOf word).name] else p

/-- Copies files to a target, or moves them there. -/
def carry (name : String) (moves : Bool) (words : List String) : Sh Int :=
  withOptions name "fprRa" "" words fun o => do
    match o.words.reverse with
    | [] => refuse name "missing file operand"
    | [word] => refuse name s!"missing destination file operand after '{word}'"
    | target :: words =>
      forEach words.reverse fun word => do
        match ← found word with
        | .error reason => complain name s!"cannot stat '{word}': {reason.text}"
        | .ok (place, .directory) =>
          if !moves then complain name s!"-r not specified; omitting directory '{word}'"
          else
            let s ← get
            match s.files.follow s.directory (← targetOf target word) with
            | .error reason => complain name s!"cannot move '{word}' to '{target}': {reason.text}"
            | .ok goal =>
              let moved := s.files.entries.map fun (p, entry) =>
                (if place.isPrefixOf p then goal ++ p.drop place.length else p, entry)
              setFiles ⟨moved⟩
              return 0
        | .ok (place, .file bytes) =>
          let s ← get
          match s.files.writeFile s.directory (← targetOf target word) bytes with
          | .error fault =>
            complain name s!"cannot create regular file '{target}': {fault.reason.text}"
          | .ok files =>
            setFiles (if moves then files.remove place else files)
            return 0

/-- Lists files and what directories hold. -/
def ls (words : List String) : Sh Int :=
  withOptions "ls" "1aA" "" words fun o => do
    let files := if o.words.isEmpty then ["."] else o.words
    let listing (place : Location) : Sh String := do
      let names := ((← get).files.children place).map byteText
      let names := if o.has 'a' then "." :: ".." :: names else names
      let seen := if o.has 'a' || o.has 'A' then names
        else names.filter fun name => name.toList.head? ≠ some '.'
      return String.join ((seen.mergeSort fun a b => a ≤ b).map (· ++ "\n"))
    let mut plain := []
    let mut listings := []
    let mut status : Int := 0
    for word in files do
      match ← found word with
      | .error reason =>
        Sh.report s!"ls: cannot access '{word}': {reason.text}"
        status := 2
      | .ok (_, .file _) => plain := plain ++ [word ++ "\n"]
      | .ok (place, .directory) =>
        let text ← listing place
        listings := listings ++ [if files.length = 1 then text else s!"{word}:\n{text}"]
    let parts := (if plain.isEmpty then [] else [String.join plain]) ++ listings
    return max status (← emit "ls" ("\n".intercalate parts).toList)

end Branchwork.Script.Utility
