import CheckGitStatus.Library.Folds
import CheckGitStatus.Library.Sorting
import CheckGitStatus.Status
import CheckGitStatus.Text.GoStrings

/-!
# One repository check of the Go program

`GitClient.Check` runs the same two commands as the C++ program and fills in the
same record. A runner returns the trimmed output of a command or an error text.
The quoting of `fmt.Errorf("%q")`, which only decides the wording of one error
message, is the parameter `quote`.
-/

namespace CheckGitStatus.Go

open Library

/-- `GitRunner.Run`, under the context of one check. -/
abbrev GitRunner := Path → List Text → Except Text Text

/-- The arguments of the command that lists the remotes. -/
def remoteArguments : List Text :=
  [ascii "remote", ascii "-v"]

/-- The arguments of the command that reports the worktree and the branch. -/
def statusArguments : List Text :=
  [ascii "status", ascii "--porcelain=v2", ascii "--branch"]

/-- `ExecGitRunner.Run`: `CombinedOutput` delivers the bytes of both streams, and an
error unless the command succeeded. -/
def execRun (combinedOutput : List Text → Text × Option Text) : GitRunner :=
  fun directory arguments =>
    let (output, failure) := combinedOutput ([ascii "-C", directory] ++ arguments)
    let trimmed := trimSpace output
    match failure with
    | some error =>
        if trimmed ≠ [] then .error (singleLine trimmed ++ ascii ": " ++ error)
        else .error error
    | none => .ok trimmed

/-! ## The remotes -/

/-- `strings.TrimSuffix(line, "\r")`. -/
def trimCarriageReturn (line : Text) : Text :=
  dropCarriageReturn line

/-- The name and URL in a line of `git remote -v`, if it is a fetch line. -/
def fetchLine (line : Text) : Option (Text × Text) :=
  match stripSuffix (ascii " (fetch)") (trimCarriageReturn line) with
  | none => none
  | some line =>
      let name := line.takeWhile fun byte => !isBlank byte
      let afterName := line.dropWhile fun byte => !isBlank byte
      let url := afterName.dropWhile isBlank
      if afterName = [] then none
      else if name = [] ∨ url = [] then none
      else some (name, url)

/-- The map from names to URLs, as the list of its entries. -/
def collectRemotes (output : Text) : List (Text × Text) :=
  (splitLines output).foldl
    (fun remoteURLs line =>
      match fetchLine line with
      | none => remoteURLs
      | some remote => insertNew remoteURLs remote)
    []

/-- The keys of the map are sorted, so the order in which `range` visits them does
not matter; then `origin` is chosen if it is a key. -/
def selectRemote (remoteURLs : List (Text × Text)) : Option (Text × Text) :=
  match sortByKey id (remoteURLs.map Prod.fst) with
  | [] => none
  | least :: _ =>
      let name :=
        if (remoteURLs.any fun remote => remote.1 == ascii "origin") then ascii "origin" else least
      remoteURLs.find? fun remote => remote.1 == name

/-- `checkRemote`. -/
def checkRemote (runner : GitRunner) (path : Path) (status : RepositoryStatus) :
    RepositoryStatus :=
  match runner path remoteArguments with
  | .error error => { status with remoteError := some error }
  | .ok output =>
      match selectRemote (collectRemotes output) with
      | none => status
      | some selected =>
          { status with hasRemote := true, remoteName := selected.1, remoteUrl := selected.2 }

/-! ## The worktree -/

/-- The count of a `branch.ab` header: an optional plus sign and a number that is
not negative. -/
def aheadCount (field : Text) : Option Int :=
  match atoi (trimPrefix 43 field) with
  | none => none
  | some ahead => if ahead < 0 then none else some ahead

/-- One turn of the loop. A count that cannot be read ends the loop with the
variables as they are and the field that holds it. -/
def readHeader (fields : List Text) (scan : StatusScan) : Except (StatusScan × Text) StatusScan :=
  match fields with
  | _ :: key :: value :: _ =>
      if key = ascii "branch.head" then
        .ok { scan with detached := value == ascii "(detached)" }
      else if key = ascii "branch.upstream" then .ok { scan with hasUpstream := true }
      else if key = ascii "branch.ab" then
        match aheadCount value with
        | some ahead => .ok { scan with ahead }
        | none => .error (scan, value)
      else .ok scan
  | _ => .ok scan

/-- One line of the status output: an empty one is skipped. -/
def readStatusLine (scan : StatusScan) (line : Text) : Except (StatusScan × Text) StatusScan :=
  let line := trimCarriageReturn line
  if line = [] then .ok scan
  else if line.head? ≠ some 35 then .ok { scan with dirty := true }
  else readHeader (fields line) scan

/-- The loop over the lines, which a count that cannot be read ends. -/
def readStatusLines : List Text → StatusScan → Except (StatusScan × Text) StatusScan
  | [], scan => .ok scan
  | line :: rest, scan =>
      match readStatusLine scan line with
      | .ok next => readStatusLines rest next
      | .error stopped => .error stopped

/-- `checkStatus`: a count that cannot be read becomes the upstream error. -/
def checkStatus (quote : Text → Text) (runner : GitRunner) (path : Path)
    (status : RepositoryStatus) : RepositoryStatus :=
  match runner path statusArguments with
  | .error error =>
      { status with
        worktreeError := some error
        upstreamState := .error
        upstreamError := some error }
  | .ok output =>
      match readStatusLines (splitLines output) {} with
      | .error (scan, field) =>
          { status with
            dirty := scan.dirty
            ahead := scan.ahead
            upstreamState := .error
            upstreamError := some (ascii "parse ahead count " ++ quote field) }
      | .ok scan =>
          { status with
            dirty := scan.dirty
            ahead := scan.ahead
            upstreamState :=
              if scan.detached then .detached else if scan.hasUpstream then .ok else .missing }

/-- `Check`. -/
def check (quote : Text → Text) (runner : GitRunner) (path : Path) : RepositoryStatus :=
  checkStatus quote runner path (checkRemote runner path { path })

/-- The runner of the tests answers the two commands of a check with given outputs. -/
def scriptedRunner (remoteOutput statusOutput : Text) : GitRunner :=
  fun _ arguments =>
    if arguments = remoteArguments then .ok remoteOutput
    else if arguments = statusArguments then .ok statusOutput
    else .error (ascii "unexpected Git command")

end CheckGitStatus.Go
