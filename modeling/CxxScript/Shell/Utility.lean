import CxxScript.Host.Machine
import CxxScript.Shell.Quoted

/-!
# Utilities

A few programs stand at fixed locations of the machine. They do to the files what their namesakes
do, with the options that small scripts use. Each names itself in its complaints the way it was
called.
-/

set_option autoImplicit false

namespace CxxScript.Shell

/-- A utility of the machine. -/
inductive Utility where
  | shell
  | env
  | chmod
  | ln
  | cat
  | cp
  | mkdir
  | rm
  | touch
  | echo
  | succeed
  | fail
  deriving DecidableEq, Repr

namespace Utility

/-- Where the utilities stand. -/
def place : Location := ["usr", "bin"]

/-- The utilities by the names of their files. -/
def table : List (String × Utility) := [
  ("dash", .shell), ("env", .env), ("chmod", .chmod), ("ln", .ln), ("cat", .cat), ("cp", .cp),
  ("mkdir", .mkdir), ("rm", .rm), ("touch", .touch), ("echo", .echo), ("sleep", .succeed),
  ("true", .succeed), ("false", .fail)]

/-- The utility at a location. -/
def at? (at_ : Location) : Option Utility :=
  match at_.getLast? with
  | some name => if at_.dropLast = place then table.lookup name else none
  | none => none

/-- What a utility's file holds: the start of a program in the system's own format. -/
def image : Bytes := 0x7f :: Text.Utf8.encode "ELF"

/-- The files with the utilities and the devices in their places. The shell is also known by the
usual name, and all utilities also stand in `/bin`. -/
def install (fs : Files) : Files :=
  let fs := table.foldl (fun fs u => fs.plant (place ++ [u.1]) (.file image true)) fs
  let fs := (fs.plant (place ++ ["sh"]) (.link "dash")).plant ["bin"] (.link "usr/bin")
  let fs := ["etc", "home", "proc", "root", "sys", "tmp", "var"].foldl
    (fun fs dir => if (fs.get? [dir]).isSome then fs else fs.plant [dir] .directory) fs
  Device.table.foldl (fun fs d => fs.plant ("dev" :: d.1) (.device d.2)) fs

end Utility

/-- A program about to run: how it is started, under which process number and by which processes,
the nearest first, where, with which environment, with which input, and which of its streams take
nothing. -/
structure Launch where
  start : Start
  pid : Nat
  parents : List Nat
  cwd : WorkingDir
  environment : List (String × String)
  input : List Char := []
  refused : Stream → Option Errno := fun _ => none

/-- What a program left behind: how it ended, the files, the input that is left, what it wrote, in
order, and the signals it sent. -/
structure Ended where
  status : ExitStatus
  files : Files
  input : List Char
  written : List (Stream × Bytes) := []
  sent : List (Nat × Signal) := []

namespace Launch

/-- The name by which a program was called. -/
def self (l : Launch) : String := l.start.argv.headD ""

/-- The arguments of a program. -/
def args (l : Launch) : List String := l.start.argv.drop 1

/-- The end of a program that wrote nothing but complaints. -/
def finish (l : Launch) (fs : Files) (status : Nat) (complaints : List String) : Ended where
  status := .exited status
  files := fs
  input := l.input
  written := complaints.map fun text => (.error, Text.Utf8.encode s!"{l.self}: {text}\n")

/-- The end of a program that has been called in a wrong way. -/
def misuse (l : Launch) (fs : Files) (status : Nat) (complaint : String) : Ended :=
  l.finish fs status [complaint ++ s!"\nTry '{l.self} --help' for more information."]

/-- The options among the arguments, letter by letter. -/
def letters (l : Launch) : List Char :=
  (l.args.filter fun a => a.startsWith "-").flatMap String.toList

/-- The arguments that are no options. -/
def operands (l : Launch) : List String := l.args.filter fun a => !a.startsWith "-"

/-- Do something to the files for each path in turn; what cannot be done is complained about. -/
def forEachPath (l : Launch) (fs : Files) (step : Files → String → Option String × Files)
    (paths : List String) : Ended :=
  let (fs, complaints) := paths.foldl (fun acc path =>
    let (complaint, fs) := step acc.1 path
    (fs, acc.2 ++ complaint.toList)) (fs, ([] : List String))
  l.finish fs (if complaints.isEmpty then 0 else 1) complaints

end Launch

/-- What a program leaves behind that gives up, with a status for that, where its output is not
taken. -/
def Ended.delivered (e : Ended) (l : Launch) (status : Nat) : Ended :=
  let isTaken (w : Stream × Bytes) : Bool :=
    w.2.isEmpty || w.1 = .error || (l.refused .output).isNone
  match l.refused .output, e.written.all isTaken with
  | some cause, false =>
    let complaint := s!"{l.self}: write error: {cause.description}\n"
    { e with
      status := .exited status
      written := e.written.takeWhile isTaken ++ [(.error, Text.Utf8.encode complaint)] }
  | _, _ => e

/-- Why the system refused something. -/
def why : IoError → String
  | .system e => e.description
  | e => e.message

namespace Launch

/-- A path between quotes, with a single slash at most at its end. -/
def trimmed (path : String) : String :=
  let name := (Files.bare ⟨path⟩).text
  Quoted.quoted (if name = path || name = "/" then name else name ++ "/")

/-- Whether a file may be executed after a change of its mode, by whether it may be before. A mode
is a number, or a list of changes such as `+x`, `u=rw` and `a-x`; a change that leaves somebody out
takes no permission away that the others keep. -/
def executableAfter (mode : String) (before : Bool) : Bool :=
  if mode.toList.all Char.isDigit then
    (mode.toList.reverse.take 3).any fun c => "1357".toList.contains c
  else (mode.splitOn ",").foldl (fun before change =>
    let who := change.toList.takeWhile "ugoa".toList.contains
    let isForAll := who.isEmpty || who.contains 'a' || "ugo".toList.all who.contains
    match change.toList.dropWhile "ugoa".toList.contains with
    | '+' :: what => before || what.contains 'x'
    | '-' :: what => before && !(isForAll && what.contains 'x')
    | '=' :: what => what.contains 'x' || (before && !isForAll)
    | _ => before) before

/-- Whether a path ends in a link that leads to nothing. -/
def isDangling (l : Launch) (fs : Files) (path : Path) : Bool :=
  match fs.locate l.cwd .linkItself path, fs.find l.cwd path with
  | .ok (.present _ (.link _)), .error e => e = .system .noEntry
  | _, _ => false

/-- Change the modes of files: only the execute permission is kept track of. -/
def chmod (l : Launch) (fs : Files) : Ended :=
  match l.args with
  | [] => l.misuse fs 1 "missing operand"
  | [mode] => l.misuse fs 1 ("missing operand after " ++ Quoted.escaped mode)
  | mode :: paths =>
    l.forEachPath fs (fun fs path =>
      match fs.find l.cwd ⟨path⟩ with
      | .ok (at_, .file content executable) =>
        (none, fs.set at_ (.file content (executableAfter mode executable)))
      | .ok _ => (none, fs)
      | .error e =>
        if isDangling l fs ⟨path⟩ then
          ("cannot operate on dangling symlink " ++ Quoted.quoted path, fs)
        else (s!"cannot access {trimmed path}: {why e}", fs)) paths

/-- The path under which something is put: in a directory if one is named. -/
def inside (l : Launch) (fs : Files) (source target : String) : Path :=
  let base := ((⟨source⟩ : Path).fileName?).getD source
  if fs.isDirectory l.cwd ⟨target⟩ then (⟨target⟩ : Path).join ⟨base⟩ else ⟨target⟩

/-- Make a symbolic link, in a directory if one is named; `-f` replaces what is there. -/
def ln (l : Launch) (fs : Files) : Ended :=
  match l.operands with
  | [target, link] =>
    let link := inside l fs target link
    let name := Files.bare link
    let forced := l.letters.contains 'f'
    let failure (e : IoError) : Ended :=
      let link := Quoted.quoted link.text
      let target := if target.isEmpty || e = .system .nameTooLong
        then " -> " ++ Quoted.quoted target else ""
      l.finish fs 1 [s!"failed to create symbolic link {link}{target}: {why e}"]
    let failureOf (e otherwise : IoError) : Ended :=
      if forced && e ≠ .system .noEntry then
        l.finish fs 1 [s!"failed to access {Quoted.quoted link.text}: {why e}"]
      else failure otherwise
    match fs.locate l.cwd .linkItself name with
    | .error e => failureOf e e
    | .ok (.missing at_) =>
      if target.isEmpty || name ≠ link then failure (.system .noEntry)
      else match fs.make at_ (.link target) with
        | .ok fs => l.finish fs 0 []
        | .error e => failure e
    | .ok (.present at_ entry) =>
      if name ≠ link then
        match fs.find l.cwd link with
        | .ok _ => failure (.system .exists_)
        | .error e => failureOf e (.system .exists_)
      else if !forced then failure (.system .exists_)
      else if entry = .directory then
        l.finish fs 1 [Quoted.shown link.text ++ ": cannot overwrite directory"]
      else l.finish (fs.set at_ (.link target)) 0 []
  | _ => l.misuse fs 1 "missing file operand"

/-- Write files, or the input, to the output. -/
def cat (l : Launch) (fs : Files) : Ended :=
  let isInput (path : String) : Bool :=
    path = "-" || match fs.find l.cwd ⟨path⟩ with
      | .ok (_, .device (.descriptor 0)) => true
      | _ => false
  let read (path : String) : Stream × Bytes :=
    if isInput path then (.output, Text.Utf8.encode (String.ofList l.input))
    else match fs.read l.cwd ⟨path⟩ with
      | .ok content => (.output, content)
      | .error e => (.error, Text.Utf8.encode s!"{l.self}: {Quoted.shown path}: {why e}\n")
  let paths := if l.args.isEmpty then ["-"] else l.args
  let written := paths.map read
  let failed := written.any fun w => w.1 = .error
  let input := if paths.any isInput then [] else l.input
  { status := .exited (if failed then 1 else 0), files := fs, input, written }

/-- Copy a file, over another one or into a directory. -/
def cp (l : Launch) (fs : Files) : Ended :=
  match l.operands with
  | [source, target] =>
    let target := inside l fs source target
    let whereTo := Quoted.quoted target.text
    let failure (complaint : String) (fs : Files) : Ended := l.finish fs 1 [complaint]
    let uncreated (e : IoError) : Ended :=
      let e := if e = .system .isDirectory then .system .notDirectory else e
      failure s!"cannot create regular file {whereTo}: {why e}" fs
    match fs.find l.cwd ⟨source⟩, fs.read l.cwd ⟨source⟩, fs.find l.cwd target with
    | .error e, _, _ => failure s!"cannot stat {Quoted.quoted source}: {why e}" fs
    | .ok (_, .directory), _, _ =>
      failure ("-r not specified; omitting directory " ++ Quoted.quoted source) fs
    | .ok _, .error e, _ => failure s!"cannot open {Quoted.quoted source} for reading: {why e}" fs
    | .ok (_, entry), .ok content, .error e =>
      if e ≠ .system .noEntry then failure s!"cannot stat {whereTo}: {why e}" fs
      else if isDangling l fs target then
        failure ("not writing through dangling symlink " ++ whereTo) fs
      else match fs.create l.cwd target with
        | .error e => uncreated e
        | .ok (at_, fs) => l.finish (fs.set at_ (.file content (entry = .file content true))) 0 []
    | .ok (here, _), .ok content, .ok (there, _) =>
      if here = there then
        failure s!"{Quoted.quoted source} and {whereTo} are the same file" fs
      else match fs.create l.cwd target with
        | .error e => uncreated e
        | .ok (at_, fs) =>
          match fs.append at_ content with
          | .ok fs => l.finish fs 0 []
          | .error e => failure s!"error writing {whereTo}: {why e}" fs
  | [source] => l.misuse fs 1 ("missing destination file operand after " ++ Quoted.escaped source)
  | _ => l.misuse fs 1 "missing file operand"

/-- The directories that the text of a path passes through, from the outermost on. -/
def passed (path : String) : List String :=
  let names := Files.names path
  (List.range names.length).filterMap fun count =>
    let front := names.take count
    let isStep := !(["", "."].contains (front.getLastD ""))
    let goesOn := (names.drop count).any fun name => name ≠ ""
    if isStep && goesOn then some ("/".intercalate front) else none

/-- Make a directory on the way to another one, where it is missing. -/
def makePassed (l : Launch) (fs : Files) (path : String) : Except IoError Files :=
  let made := fs.makeDirectory l.cwd ⟨path⟩
  let fs := made.toOption.getD fs
  match fs.find l.cwd ⟨path⟩, made with
  | .ok (_, .directory), _ => .ok fs
  | .ok _, _ => .error (.system .notDirectory)
  | .error e, .error cause => .error (if e = .system .noEntry then cause else e)
  | .error e, .ok _ => .error e

/-- Make the directories on the way to another one in turn, up to one that cannot be made. -/
def makeWay (l : Launch) : Files → List String → Option (String × IoError) × Files
  | fs, [] => (none, fs)
  | fs, path :: rest =>
    match l.makePassed fs path with
    | .ok fs => l.makeWay fs rest
    | .error e => (some (path, e), fs)

/-- Make directories; `-p` makes those above them too and does not mind one that is there. -/
def mkdir (l : Launch) (fs : Files) : Ended :=
  let deep := l.letters.contains 'p'
  let complaint (path : String) (e : IoError) : String :=
    s!"cannot create directory {Quoted.escaped path}: {why e}"
  if l.operands.isEmpty then l.misuse fs 1 "missing operand"
  else l.forEachPath fs (fun fs path =>
    match l.makeWay fs (if deep then passed path else []) with
    | (some (path, e), fs) => (complaint path e, fs)
    | (none, fs) =>
      match fs.makeDirectory l.cwd ⟨path⟩ with
      | .ok fs => (none, fs)
      | .error e =>
        match deep && e = .system .exists_, fs.find l.cwd ⟨path⟩ with
        | true, .ok (_, .directory) => (none, fs)
        | true, .error (.system .tooManyLinks) =>
          (s!"cannot stat {Quoted.quoted path}: {why (.system .tooManyLinks)}", fs)
        | _, _ => (complaint path e, fs)) l.operands

/-- Remove files; `-r` removes directories too, `-f` does not mind what is missing. -/
def rm (l : Launch) (fs : Files) : Ended :=
  let deep := l.letters.any fun c => c == 'r' || c == 'R'
  let forced := l.letters.contains 'f'
  let complaint (path : String) (e : IoError) : String := s!"cannot remove {trimmed path}: {why e}"
  if l.operands.isEmpty && !forced then l.misuse fs 1 "missing operand"
  else l.forEachPath fs (fun fs path =>
    match fs.locate l.cwd .linkItself ⟨path⟩ with
    | .ok (.present _ .directory) =>
      if !deep then (complaint path (.system .isDirectory), fs)
      else if [".", ".."].contains ((Files.names (Files.bare ⟨path⟩).text).getLastD "") then
        (s!"refusing to remove '.' or '..' directory: skipping {trimmed path}", fs)
      else match fs.removeTree l.cwd ⟨path⟩ with
        | (.ok (), fs) => (none, fs)
        | (.error e, fs) => (complaint path e, fs)
    | _ =>
      match fs.remove l.cwd ⟨path⟩ with
      | .ok fs => (none, fs)
      | .error e =>
        let isAbsent := e = .system .noEntry || e = .system .notDirectory
        (if forced && isAbsent then none else complaint path e, fs)) l.operands

/-- Make files that are missing. -/
def touch (l : Launch) (fs : Files) : Ended :=
  if l.operands.isEmpty then l.misuse fs 1 "missing file operand"
  else l.forEachPath fs (fun fs path =>
    match fs.openAppend l.cwd ⟨path⟩ with
    | .ok (_, fs) => (none, fs)
    | .error e =>
      match fs.find l.cwd ⟨path⟩ with
      | .ok _ => (none, fs)
      | .error missing =>
        if e = .system .isDirectory then
          (s!"setting times of {Quoted.quoted path}: {why missing}", fs)
        else (s!"cannot touch {Quoted.quoted path}: {why e}", fs)) l.operands

/-- Write the arguments, with a space between any two. -/
def echo (l : Launch) (fs : Files) : Ended :=
  let (args, ending) := match l.args with
    | "-n" :: rest => (rest, "")
    | args => (args, "\n")
  let text := " ".intercalate args ++ ending
  { l.finish fs 0 [] with written := [(.output, Text.Utf8.encode text)] }

end Launch

/-- What a utility does if its output is taken and it needs no other program for it. -/
def Utility.work (l : Launch) (fs : Files) : Utility → Ended
  | .chmod => l.chmod fs
  | .ln => l.ln fs
  | .cat => l.cat fs
  | .cp => l.cp fs
  | .mkdir => l.mkdir fs
  | .rm => l.rm fs
  | .touch => l.touch fs
  | .echo => l.echo fs
  | .fail => l.finish fs 1 []
  | .succeed | .shell | .env => l.finish fs 0 []

/-- What a utility does, if it needs no other program for it. -/
def Utility.run (l : Launch) (fs : Files) (u : Utility) : Ended := (u.work l fs).delivered l 1

end CxxScript.Shell
