import LayeredEnv.Resolution

/-!
# Sessions

A session resolves requests one after the other over a tree of files that may change in between,
and keeps the last result.  A request gets the kept result as it is, unless nothing is kept or the
request is forced; a request that fails leaves the kept result alone.
-/

namespace LayeredEnv

/-- The result kept by a session in a live environment. -/
structure Session where
  environment : LiveEnvironment
  kept : Option Resolution := none

namespace Session

/-- Answers a request over the current tree, and the session after it. -/
def resolve (s : Session) (tree : FileTree) (r : Request) :
    Except Fault Resolution × Session :=
  match s.kept, r.force with
  | some result, false => (.ok result, s)
  | _, _ =>
    match r.resolve tree s.environment with
    | .ok result => (.ok result, { s with kept := some result })
    | .error e => (.error e, s)

/-- Forgets the kept result. -/
def reset (s : Session) : Session :=
  { s with kept := none }

end Session

/-- Something that happens during a session. -/
inductive Step
  /-- A node is put into the tree. -/
  | write (path : Path) (node : Node)
  /-- What a path names is taken out of the tree. -/
  | remove (path : Path)
  | reset
  /-- The kept result is looked at. -/
  | look
  | resolve (request : Request)

/-- What a step shows. -/
inductive Answer
  | written
  | removed
  | reset
  | kept (result : Option Resolution)
  | resolved (result : Except Fault Resolution)

/-- A session together with the tree of files that it works on. -/
structure Workspace where
  tree : FileTree
  session : Session

namespace Workspace

/-- One step: what it shows, and the workspace after it. -/
def step (w : Workspace) : Step → Answer × Workspace
  | .write path node => (.written, { w with tree := w.tree.put path node })
  | .remove path => (.removed, { w with tree := w.tree.remove path })
  | .reset => (.reset, { w with session := w.session.reset })
  | .look => (.kept w.session.kept, w)
  | .resolve request =>
    let (result, session) := w.session.resolve w.tree request
    (.resolved result, { w with session })

/-- Steps one after the other: what each of them shows, and the workspace after all of them. -/
def run (w : Workspace) : List Step → List Answer × Workspace
  | [] => ([], w)
  | first :: rest =>
    let (answer, w) := w.step first
    let (answers, w) := run w rest
    (answer :: answers, w)

end Workspace

end LayeredEnv
