import CycleWatch.CorrelationId
/-!
# Calling off

A cell can be called off once and for good. A cell lists those derived from it, which are to hear when
it is called off, but being listed does not keep a cell alive: it is alive while a handle or a waiter
refers to it, and a cell that is not alive neither hears nor passes on anything. A cell derived from one
that is called off is born so.
-/
namespace CycleWatch

namespace Cancellation

/-- Something that can be called off. -/
inductive Cell where
  /-- It is not called off; the cells of these numbers are to hear when it is. -/
  | running (listeners : List Nat)
  /-- It is called off. -/
  | calledOff
deriving DecidableEq, Repr

/-- A reference to a cell, with the id of the run if it comes from that. -/
structure Handle where
  /-- The number of the cell. -/
  cell : Nat
  /-- The id of the run. -/
  id : Option CorrelationId
deriving DecidableEq, Repr

/-- Who waits until a cell is called off. -/
structure Waiter where
  /-- The number of the cell. -/
  cell : Nat
  /-- Whether the wait has come to an end. -/
  finished : Bool
deriving DecidableEq, Repr

/-- How many listeners are still to hear from one of the cells. -/
def links : List Cell → Nat
  | [] => 0
  | .running listeners :: cells => listeners.length + links cells
  | .calledOff :: cells => links cells

theorem links_set {cells : List Cell} {cell : Nat} {listeners : List Nat}
    (h : cells[cell]? = some (.running listeners)) :
    links (cells.set cell .calledOff) + listeners.length = links cells := by
  induction cells generalizing cell with
  | nil => simp at h
  | cons first cells ih =>
      cases cell with
      | zero =>
          simp only [List.getElem?_cons_zero, Option.some.injEq] at h
          subst h
          simp only [List.set_cons_zero, links]
          omega
      | succ cell =>
          rw [List.getElem?_cons_succ] at h
          have hrest := ih h
          cases first with
          | running others => simp only [List.set_cons_succ, links]; omega
          | calledOff => simpa only [List.set_cons_succ, links] using hrest

end Cancellation

/-- Cells and what refers to them. Cells are numbered in the order of their making. -/
structure Cancellation where
  /-- The cells by their numbers. -/
  cells : List Cancellation.Cell
  /-- The handles, `none` for one that was dropped. -/
  handles : List (Option Cancellation.Handle)
  /-- Those who wait for a cell, in the order of their coming. -/
  waiters : List Cancellation.Waiter
deriving DecidableEq, Repr

namespace Cancellation

/-- No cell at all. -/
def empty : Cancellation := ⟨[], [], []⟩

/-- The handle of a number, unless it was dropped. -/
def handle? (f : Cancellation) (h : Nat) : Option Handle :=
  (f.handles[h]?).join

/-- Whether the cell of a number is called off. -/
def isCancelled (f : Cancellation) (cell : Nat) : Bool :=
  f.cells[cell]? = some .calledOff

/-- Whether a handle or a waiter refers to the cell. -/
def isAlive (f : Cancellation) (cell : Nat) : Bool :=
  f.handles.any (fun h => h.any fun h => h.cell == cell) || f.waiters.any fun w => w.cell == cell

/-- Those of the listeners that are alive. -/
def audience (f : Cancellation) (listeners : List Nat) : List Nat :=
  listeners.filter f.isAlive

/-- A new cell and its handle. -/
def add (f : Cancellation) (cell : Cell) (id : Option CorrelationId) : Cancellation :=
  { f with
    cells := f.cells ++ [cell]
    handles := f.handles ++ [some ⟨f.cells.length, id⟩] }

/-- A new cell that was derived from none. -/
def root (f : Cancellation) : Cancellation :=
  f.add (.running []) none

/-- One handle of one cell. -/
def start (id : Option CorrelationId) : Cancellation :=
  empty.add (.running []) id

/-- A new cell derived from that of a handle. It is listed there, in the place of those that are no
longer alive, or called off at once. -/
def derive (f : Cancellation) (h : Nat) : Cancellation :=
  match f.handle? h with
  | some handle =>
    match f.cells[handle.cell]? with
    | some (.running listeners) =>
      let listeners := f.audience listeners ++ [f.cells.length]
      { f with cells := f.cells.set handle.cell (.running listeners) }.add (.running []) handle.id
    | some .calledOff => f.add .calledOff handle.id
    | none => f
  | none => f

/-- One more handle of the same cell. -/
def copy (f : Cancellation) (h : Nat) : Cancellation :=
  { f with handles := f.handles ++ [f.handle? h] }

/-- One more handle of the same cell, without the id. -/
def bare (f : Cancellation) (h : Nat) : Cancellation :=
  { f with handles := f.handles ++ [(f.handle? h).map fun handle => ⟨handle.cell, none⟩] }

/-- The handle is dropped. -/
def drop (f : Cancellation) (h : Nat) : Cancellation :=
  { f with handles := f.handles.set h none }

/-- A waiter for the cell of a handle. It waits no longer when that is called off already. -/
def wait (f : Cancellation) (h : Nat) : Cancellation :=
  match f.handle? h with
  | some handle => { f with waiters := f.waiters ++ [⟨handle.cell, f.isCancelled handle.cell⟩] }
  | none => f

/-- Calls off a single cell: who waits for it waits no longer, and its listeners are forgotten. -/
def callOff (f : Cancellation) (cell : Nat) : Cancellation :=
  { f with
    cells := f.cells.set cell .calledOff
    waiters := f.waiters.map fun w => if w.cell = cell then { w with finished := true } else w }

/-- Calls off cells one after the other, each of them followed by those that listen to it and are
alive. One that is called off already is passed over, with all that listened to it. -/
def spread (f : Cancellation) (pending : List Nat) : Cancellation :=
  match pending with
  | [] => f
  | cell :: rest =>
    match _h : f.cells[cell]? with
    | some (.running listeners) => (f.callOff cell).spread (f.audience listeners ++ rest)
    | _ => f.spread rest
termination_by pending.length + links f.cells
decreasing_by
  · have hlinks := links_set _h
    have haudience : (f.audience listeners).length ≤ listeners.length := List.length_filter_le ..
    simp only [callOff, List.length_append, List.length_cons]
    omega
  · simp

/-- Calls off the cell of a handle. -/
def cancel (f : Cancellation) (h : Nat) : Cancellation :=
  match f.handle? h with
  | some handle => f.spread [handle.cell]
  | none => f

/-- Whether the cell of a handle is called off, unless the handle was dropped. -/
def state? (f : Cancellation) (h : Nat) : Option Bool :=
  (f.handle? h).map fun handle => f.isCancelled handle.cell

/-- The states of all handles, in the order of their making. -/
def states (f : Cancellation) : List (Option Bool) :=
  f.handles.map fun h => h.map fun handle => f.isCancelled handle.cell

/-- Which waiters have come to an end. -/
def finished (f : Cancellation) : List Bool :=
  f.waiters.map Waiter.finished

/-- Refuses an operation when the cell of the handle is called off. -/
def ensure (f : Cancellation) (h : Nat) (operation : String) : Except Fault Unit :=
  if (f.state? h).getD false then .error (Fault.calledOff operation) else .ok ()

end Cancellation

end CycleWatch
