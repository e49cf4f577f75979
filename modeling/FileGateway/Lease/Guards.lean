/-!
# Path guards

Stores without an exclusive create look for a marker first and create it then. Within one process a
guard closes the gap between the two: whoever works on a marker holds the guard of its path, and all
others wait in the order in which they came.

The guard of a path is found by a key. A table leads from keys to guards; it does not keep a guard
alive, and every look into it drops the entries whose guard nobody uses any more.
-/

namespace FileGateway

/-- A place in the queue of a guard. No other ticket has its number. -/
structure Ticket where
  guard : Nat
  number : Nat
deriving DecidableEq, Repr

/-- The guards of a process. The queue of a guard has the ticket that holds it first, then those
that wait. The table leads from each key to its guard, which may be out of use. So many tickets
were `issued`. -/
structure Guards where
  queues : List (List Ticket)
  table : List (String × Nat)
  issued : Nat
deriving DecidableEq, Repr

namespace Guards

/-- No guards. -/
def empty : Guards := ⟨[], [], 0⟩

instance : Inhabited Guards := ⟨empty⟩

/-- The queue of a guard. -/
def queue (g : Guards) (guard : Nat) : List Ticket :=
  g.queues[guard]?.getD []

/-- Whether somebody holds a guard or waits for it. -/
def inUse (g : Guards) (guard : Nat) : Bool :=
  !(g.queue guard).isEmpty

/-- Drops the entries whose guard is out of use. -/
def prune (g : Guards) : Guards :=
  { g with table := g.table.filter fun entry => g.inUse entry.2 }

/-- The guard of a key, a new one if the key has none in use. -/
def lookup (g : Guards) (key : String) : Nat × Guards :=
  let g := g.prune
  match g.table.lookup key with
  | some guard => (guard, g)
  | none =>
    let guard := g.queues.length
    (guard, { g with queues := g.queues ++ [[]], table := g.table ++ [(key, guard)] })

/-- Joins the queue of the guard of a key. -/
def arrive (g : Guards) (key : String) : Ticket × Guards :=
  let (guard, g) := g.lookup key
  let ticket : Ticket := ⟨guard, g.issued⟩
  (ticket,
    { g with
      queues := g.queues.modify guard fun queue => queue ++ [ticket]
      issued := g.issued + 1 })

/-- Whether a ticket holds its guard. -/
def holds (g : Guards) (ticket : Ticket) : Bool :=
  (g.queue ticket.guard).head? == some ticket

/-- Leaves the queue of a guard. If the ticket held the guard, the next one holds it now. -/
def leave (g : Guards) (ticket : Ticket) : Guards :=
  { g with queues := g.queues.modify ticket.guard fun queue => queue.erase ticket }

end Guards

end FileGateway
