/-
# A store of either kind

`Backend` is a store whose kind is chosen when the program runs: tables in memory, or a
database.  Each call goes to the store that is there.
-/
import Backlog.Store.Tables
import Backlog.Store.Database

namespace Backlog

/-- A store in memory or in a database. -/
inductive Backend
  | memory (tables : Tables)
  | database (connection : Connection)
deriving DecidableEq

namespace Backend

/-- Passes a write on to the store that is there. -/
def lift (onTables : Tables → Except StoreError Tables)
    (onConnection : Connection → Except StoreError Connection) :
    Backend → Except StoreError Backend
  | memory t => (onTables t).map memory
  | database c => (onConnection c).map database

instance : Storage Backend where
  load
    | memory t => Storage.load t
    | database c => Storage.load c
  insert batch := lift (Storage.insert batch) (Storage.insert batch)
  setRunning id running := lift (Storage.setRunning id running) (Storage.setRunning id running)
  reschedule id running attempt due payload :=
    lift (Storage.reschedule id running attempt due payload)
      (Storage.reschedule id running attempt due payload)
  clearRunning := lift Storage.clearRunning Storage.clearRunning
  amend jobs := lift (Storage.amend jobs) (Storage.amend jobs)
  delete ids := lift (Storage.delete ids) (Storage.delete ids)

/-- Closes a database; tables in memory have nothing to close. -/
def close : Backend → Backend
  | memory t => memory t
  | database c => database { c with closed := true }

/-- Opens a database again. -/
def reopen : Backend → Backend
  | memory t => memory t
  | database c => database { c with closed := false }

end Backend

end Backlog
