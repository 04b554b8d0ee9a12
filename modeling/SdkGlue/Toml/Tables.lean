import SdkGlue.Document
import SdkGlue.Toml.Error

/-!
# Tables of TOML texts

A document is built statement by statement.  Beside the values it remembers
which tables have been declared, so that none is declared twice, and which
values are closed: an inline table or array takes no more entries.
-/

namespace SdkGlue.Toml

open Value (Fields)

/-- The last item of a list replaced by what `f` makes of it. -/
def updateLast {ε α : Type} (f : α → Except ε α) : List α → Except ε (List α)
  | [] => .ok []
  | [a] => (f a).map ([·])
  | a :: b :: rest => (updateLast f (b :: rest)).map (a :: ·)

/-- The fields with the table under a dotted key changed by `f`; tables that
are missing on the way are created.  With `lists`, an array on the way stands
for its last table. -/
def within (lists : Bool) : Key → (Fields → Except Mistake Fields) → Fields →
    Except Mistake Fields
  | [], f, fields => f fields
  | k :: key, f, fields =>
      let inside : Value → Except Mistake Value
        | .table t => (within lists key f t).map .table
        | _ => .error .overwrite
      let changed : Except Mistake Value :=
        match Keyed.get? fields k with
        | none => inside (.table [])
        | some (.list items) =>
            if lists ∧ items ≠ [] then (updateLast inside items).map .list
            else .error .overwrite
        | some v => inside v
      changed.map (Keyed.put k · fields)

def parentOf (key : Key) : Key := key.dropLast

def lastOf (key : Key) : String := key.getLast?.getD ""

/-- Adds an entry; `repeated` says what is wrong when the key is there. -/
def addEntry (repeated : Mistake) (key : String) (v : Value) (fields : Fields) :
    Except Mistake Fields :=
  if (Keyed.get? fields key).isSome then .error repeated else .ok (Keyed.put key v fields)

def appendTable (key : String) (fields : Fields) : Except Mistake Fields :=
  match Keyed.get? fields key with
  | none => .ok (Keyed.put key (.list [.table []]) fields)
  | some (.list items) => .ok (Keyed.put key (.list (items ++ [.table []])) fields)
  | some _ => .error .overwrite

/-- The value takes no more entries. -/
def isClosed : Value → Bool
  | .table _ => true
  | .list _ => true
  | _ => false

/-- A document under construction. -/
structure Draft where
  root : Fields
  header : Key
  declared : List Key
  closed : List Key
  pending : List Key

namespace Draft

def empty : Draft := ⟨[], [], [], [], []⟩

def isDeclared (d : Draft) (key : Key) : Bool := d.declared.contains key

def isWithinClosed (d : Draft) (key : Key) : Bool := d.closed.any (·.isPrefixOf key)

/-- The tables of dotted keys count as declared from the next header on. -/
def settle (d : Draft) : Draft := { d with declared := d.pending ++ d.declared, pending := [] }

def openTable (d : Draft) (key : Key) : Except Mistake Draft := do
  if d.isDeclared key || d.isWithinClosed key then throw (.declaredTwice key)
  let root ← within true key .ok d.root
  return { d with root, header := key, declared := key :: d.declared }

/-- The header of an array of tables; what lay below the key is free again. -/
def openArrayTable (d : Draft) (key : Key) : Except Mistake Draft := do
  if d.isWithinClosed key then throw (.immutable key)
  let apart := fun (k : Key) => !key.isPrefixOf k
  let root ← within true (parentOf key) (appendTable (lastOf key)) d.root
  return { d with
    root, header := key
    declared := key :: d.declared.filter apart
    closed := d.closed.filter apart }

/-- The keys of the tables that a dotted key passes through. -/
def passed (header key : Key) : List Key :=
  (List.range key.length).filterMap fun i => if 0 < i then some (header ++ key.take i) else none

/-- An entry below the last header. -/
def addPair (d : Draft) (key : Key) (v : Value) : Except Mistake Draft := do
  let through := passed d.header key
  let parent := d.header ++ parentOf key
  match through.find? d.isDeclared with
  | some k => throw (.redefined k)
  | none =>
      if d.isWithinClosed parent then throw (.immutable parent)
      let root ← within true parent (addEntry .overwrite (lastOf key) v) d.root
      return { d with
        root
        pending := through ++ d.pending
        closed := if isClosed v then (d.header ++ key) :: d.closed else d.closed }

end Draft

/-- An inline table under construction, with its closed keys. -/
structure InlineDraft where
  fields : Fields
  closed : List Key

namespace InlineDraft

/-- An entry of an inline table. -/
def addPair (d : InlineDraft) (key : Key) (v : Value) : Except Mistake InlineDraft := do
  if d.closed.any (·.isPrefixOf key) then throw (.immutable key)
  let fields ←
    within false (parentOf key) (addEntry (.duplicateKey (lastOf key)) (lastOf key) v) d.fields
  return ⟨fields, if isClosed v then key :: d.closed else d.closed⟩

end InlineDraft

end SdkGlue.Toml
