import StateBuffer.Text.Bytes

/-!
Paths as texts, taken apart and put together without looking at any file system. A path is a list
of components between slashes, rooted or not; cleaning keeps a stack of components on which `..`
cancels the component below it.
-/

namespace StateBuffer

namespace Path

def separator : UInt8 := 0x2F

def isAbsolute (path : Bytes) : Bool := path.head? = some separator

/-- One component pushed on the stack of those before it, top first. -/
def push (rooted : Bool) (stack : List Bytes) (component : Bytes) : List Bytes :=
  if component = [] ∨ component = "." then stack
  else if component = ".." then
    match stack with
    | [] => if rooted then [] else [component]
    | top :: below => if top = ".." then component :: stack else below
  else component :: stack

/-- The components of a path without `.`, and without `..` except at the start of a path that is
not rooted. -/
def components (path : Bytes) : List Bytes :=
  ((Bytes.split separator path).foldl (push (isAbsolute path)) []).reverse

def ofComponents (rooted : Bool) (parts : List Bytes) : Bytes :=
  if rooted then separator :: Bytes.join [separator] parts
  else if parts.isEmpty then "." else Bytes.join [separator] parts

/-- The shortest path with the same meaning. -/
def clean (path : Bytes) : Bytes := ofComponents (isAbsolute path) (components path)

/-- The paths one below the other, cleaned; empty ones do not count. -/
def join (paths : List Bytes) : Bytes :=
  match paths.dropWhile List.isEmpty with
  | [] => []
  | rest => clean (Bytes.join [separator] rest)

/-- A path seen from a working directory. -/
def absolute (workDir path : Bytes) : Bytes :=
  if isAbsolute path then clean path else join [workDir, path]

/-- Everything before the last component, cleaned. -/
def dir (path : Bytes) : Bytes := clean ((path.reverse.dropWhile (· ≠ separator)).reverse)

def base (path : Bytes) : Bytes :=
  if path.isEmpty then "."
  else
    let last := ((path.reverse.dropWhile (· = separator)).takeWhile (· ≠ separator)).reverse
    if last.isEmpty then [separator] else last

/-- The last component from its last dot on; empty if it has no dot. -/
def extension (path : Bytes) : Bytes :=
  let last := path.reverse.takeWhile (· ≠ separator)
  let tail := last.takeWhile (· ≠ 0x2E)
  if tail.length < last.length then 0x2E :: tail.reverse else []

/-- Both lists without their longest common beginning. -/
def dropCommon : List Bytes → List Bytes → List Bytes × List Bytes
  | a :: as, b :: bs => if a = b then dropCommon as bs else (a :: as, b :: bs)
  | as, bs => (as, bs)

/-- The way from one directory to a path; `none` when only one of them is rooted, or when the way
up is unknown. -/
def relative? (start target : Bytes) : Option Bytes :=
  if clean start = clean target then some "."
  else if isAbsolute start ≠ isAbsolute target then none
  else
    match dropCommon (components start) (components target) with
    | (up, down) =>
      if up.head? = some ".." then none
      else some (Bytes.join [separator] (up.map (fun _ => ("..": Bytes)) ++ down))

/-- Does `target` lie at or below `start`? -/
def within (start target : Bytes) : Bool :=
  match relative? start target with
  | none => false
  | some way => way = "." || (way ≠ ".." && !Bytes.startsWith way "../")

end Path

end StateBuffer
