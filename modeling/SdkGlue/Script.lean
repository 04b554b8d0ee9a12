import SdkGlue.Note
import SdkGlue.Store.Access

/-!
# Scripts

Work on a project is a script: a sequence of requests to a file system, with
notes between them, that ends with a result or a fault.  Running a script on a
store answers its requests one after another.  A fault keeps what was done
before it.
-/

namespace SdkGlue

/-- An operation of the file system. -/
inductive Request where
  | kindAt (path : String)
  | list (path : String)
  | read (path : String)
  | write (path : String) (bytes : List UInt8)
  | unlink (path : String)
  | rename (source target : String)
  deriving DecidableEq, Repr

/-- What an operation answers when it succeeds. -/
def Request.Answer : Request → Type
  | .kindAt _ => Entry.Kind
  | .list _ => List (String × Entry.Kind)
  | .read _ => List UInt8
  | .write _ _ => Unit
  | .unlink _ => Unit
  | .rename _ _ => Unit

/-- A sequence of requests and notes that ends with a result or a fault. -/
inductive Script (α : Type) where
  | done (result : Except Fault α)
  | note (n : Note) (next : Script α)
  | ask (q : Request) (next : Except Cause q.Answer → Script α)

/-- What came of a script: its result, the store it left, and its notes. -/
structure Outcome (α : Type) where
  result : Except Fault α
  store : Store
  notes : List Note

/-- The answer of a store to a request, and the store after it. -/
def Request.run (s : Store) : (q : Request) → Except Cause q.Answer × Store
  | .kindAt path => (s.kindAt path, s)
  | .list path => (s.list path, s)
  | .read path => (s.read path, s)
  | .write path bytes =>
      match s.write path bytes with
      | .ok t => (.ok (), t)
      | .error c => (.error c, s)
  | .unlink path =>
      match s.unlink path with
      | .ok t => (.ok (), t)
      | .error c => (.error c, s)
  | .rename source target =>
      match s.rename source target with
      | .ok t => (.ok (), t)
      | .error c => (.error c, s)

namespace Script

variable {α β : Type}

/-- One script after another; the second sees the result of the first. -/
def bind : Script α → (α → Script β) → Script β
  | done (.ok a), f => f a
  | done (.error e), _ => done (.error e)
  | note n x, f => note n (x.bind f)
  | ask q k, f => ask q fun a => (k a).bind f

instance : Monad Script where
  pure a := done (.ok a)
  bind := Script.bind

/-- The script that only fails. -/
def fail (e : Fault) : Script α := done (.error e)

def report (n : Note) : Script Unit := note n (pure ())

/-- The script with its fault as a result. -/
def attempt : Script α → Script (Except Fault α)
  | done r => done (.ok r)
  | note n x => note n x.attempt
  | ask q k => ask q fun a => (k a).attempt

/-- The script with `cleanup` after a fault; the fault stays unless the cleanup
has one of its own. -/
def onFault (x : Script α) (cleanup : Script Unit) : Script α := do
  match ← x.attempt with
  | .ok a => return a
  | .error e => do
      cleanup
      fail e

/-- A path that no file system takes. -/
def hasNul (path : String) : Bool := path.toList.contains '\x00'

/-- A request about a path, its failure a fault that names the path. -/
def call (path : String) (q : Request) : Script q.Answer :=
  if hasNul path then fail .nulInPath
  else ask q fun
    | .ok a => pure a
    | .error c => fail (.system c path)

/-- The kind of what a path leads to, if it leads anywhere. -/
def probe (path : String) : Script (Option Entry.Kind) :=
  if hasNul path then pure none
  else ask (.kindAt path) fun
    | .ok (kind : Entry.Kind) => pure (some kind)
    | .error .nameTooLong => fail (.system .nameTooLong path)
    | .error _ => pure none

def ofExcept : Except Fault α → Script α := done

def run : Script α → Store → Outcome α
  | done r, s => ⟨r, s, []⟩
  | note n x, s =>
      let o := x.run s
      { o with notes := n :: o.notes }
  | ask q k, s => (k (q.run s).1).run (q.run s).2

/-- What comes of a script that goes on after another one. -/
def Outcome.andThen (o : Outcome α) (f : α → Script β) : Outcome β :=
  match o.result with
  | .error e => ⟨.error e, o.store, o.notes⟩
  | .ok a =>
      let p := (f a).run o.store
      { p with notes := o.notes ++ p.notes }

@[simp] theorem run_pure (a : α) (s : Store) : (pure a : Script α).run s = ⟨.ok a, s, []⟩ := rfl

@[simp] theorem run_fail (e : Fault) (s : Store) : (fail e : Script α).run s = ⟨.error e, s, []⟩ :=
  rfl

@[simp] theorem run_report (n : Note) (s : Store) : (report n).run s = ⟨.ok (), s, [n]⟩ := rfl

@[simp] theorem run_ask (q : Request) (k : Except Cause q.Answer → Script α) (s : Store) :
    (ask q k).run s = (k (q.run s).1).run (q.run s).2 := rfl

@[simp] theorem run_bind (x : Script α) (f : α → Script β) (s : Store) :
    (x >>= f).run s = Outcome.andThen (x.run s) f := by
  show (x.bind f).run s = _
  induction x generalizing s with
  | done r => cases r <;> simp [bind, run, Outcome.andThen]
  | note n x ih =>
      simp only [bind, run, ih, Outcome.andThen]
      split <;> simp_all
  | ask q k ih => simp only [bind, run, ih]

@[simp] theorem run_attempt (x : Script α) (s : Store) :
    x.attempt.run s = ⟨.ok (x.run s).result, (x.run s).store, (x.run s).notes⟩ := by
  induction x generalizing s with
  | done r => rfl
  | note n x ih => simp [attempt, run, ih]
  | ask q k ih => simp only [attempt, run, ih]

end Script

end SdkGlue
